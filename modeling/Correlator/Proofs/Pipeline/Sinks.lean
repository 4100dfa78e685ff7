import Correlator.Bridge.Step
import Correlator.Proofs.Config.Accepted
import Correlator.Proofs.Pipeline.Built
import Correlator.Proofs.Pipeline.Rollback

/-!
# The sink of an id

An event is given to the first sink of an id. Sinks of two kinds may have one id, and so may sinks
that answer the requests of one source; request sinks may not.

* `Element.Answers`: the element is a sink of an id.
* `Pipeline.sink_eq_ok`: the first of them is the sink of the id.
* `Pipeline.started`: a pipeline that was started is what was configured, and all of it is active.
* `Config.kind_of_same_owner`: two sinks of one id in a document with which nothing is wrong.
* **`Pipeline.publish_of_accepted`**: which sink of such a document an event is given to.
-/

namespace Correlator

/-- The element is a sink of the id. -/
def Element.Answers (e : Element) (id : String) : Prop := e.isSink = true ∧ e.id = id

namespace Pipeline

variable {p : Pipeline} {s : Switchboard} {e : Element} {id : String} {before after : List Element}

/-! ## The first sink of an id -/

theorem answers_iff : (e.isSink && e.id == id) = true ↔ e.Answers id := by
  simp [Element.Answers]

/-- The first sink of an id is the sink of the id. -/
theorem sink_eq_ok (hrunning : p.running = true) (helements : p.elements = before ++ e :: after)
    (he : e.Answers id) (hbefore : ∀ e' ∈ before, ¬ e'.Answers id) : p.sink id = .ok e := by
  have hfind : p.elements.find? (fun e => e.isSink && e.id == id) = some e := by
    rw [List.find?_eq_some_iff_append]
    refine ⟨answers_iff.2 he, before, after, helements, fun e' he' => ?_⟩
    rw [Bool.not_eq_true', Bool.eq_false_iff, ne_eq, answers_iff]
    exact hbefore e' he'
  simp [sink, hrunning, hfind]

/-- There is a first among the sinks of an id. -/
theorem exists_first {es : List Element} (he : e ∈ es) (h : e.Answers id) :
    ∃ before first after, es = before ++ first :: after ∧ first.Answers id ∧
      ∀ e' ∈ before, ¬ e'.Answers id := by
  induction es with
  | nil => cases he
  | cons e' es ih =>
    by_cases he' : e'.Answers id
    · exact ⟨[], e', es, rfl, he', by simp⟩
    · have hmem : e ∈ es := (List.mem_cons.1 he).resolve_left fun heq => he' (heq ▸ h)
      obtain ⟨before, first, after, rfl, hfirst, hbefore⟩ := ih hmem
      exact ⟨e' :: before, first, after, rfl, hfirst, List.forall_mem_cons.2 ⟨he', hbefore⟩⟩

/-! ## Pipelines that were started -/

/-- A pipeline that was started is what was configured, and all of it is active. -/
theorem started (hp : p.running = false) (hstart : (p.start s).2.2 = .ok ()) :
    (p.start s).1.running = true ∧
      (p.start s).1.elements.map Element.config = p.elements.map Element.config := by
  obtain ⟨-, -, hrunning, hresult⟩ := start_eq hp s
  have hok := (congrArg Prod.snd hresult).symm.trans hstart
  constructor
  · rw [hrunning, hok]
    rfl
  · have hidle : (p.start s).1.elements.map Element.idle = p.elements.map Element.idle :=
      congrArg Pipeline.elements (anew_start p s)
    have hconfig : Element.config ∘ Element.idle = Element.config := rfl
    rw [← hconfig, ← List.map_map, hidle, List.map_map]

end Pipeline

/-! ## Sinks of one id -/

namespace Config

variable {config : Config} {c : PipelineConfig} {e e' : ElementConfig}
  {before after : List ElementConfig}

/-- Of two sinks with one id in a pipeline, one answers requests, if nothing is wrong with the
document. -/
theorem kind_of_same_owner (h : config.problems = []) (hc : c ∈ config.pipelines)
    (helements : c.elements = before ++ e :: after) (he' : e' ∈ before)
    (hsink : e.kind.isSink = true) (hsink' : e'.kind.isSink = true) (howner : e'.owner = e.owner) :
    e'.kind = .responseSink ∨ e.kind = .responseSink := by
  obtain ⟨-, -, -, hregistrations, -⟩ := problems_eq_nil_iff.1 h
  have hnodup := (List.nodup_flatMap.1 hregistrations).1 c hc
  rw [helements, List.filterMap_append] at hnodup
  cases e with
  | responseSink k => exact .inr rfl
  | requestSource k => cases hsink
  | responseSource k => cases hsink
  | requestSink k =>
    cases e' with
    | responseSink k' => exact .inl rfl
    | requestSource k' => cases hsink'
    | responseSource k' => cases hsink'
    | requestSink k' =>
      -- request sinks register their ids, each once in the whole document
      obtain ⟨-, -, hdisjoint⟩ := List.nodup_append.1 hnodup
      have hregistration' : (.requestSink, k'.sinkId, none) ∈
          before.filterMap ElementConfig.registration? := List.mem_filterMap.2 ⟨_, he', rfl⟩
      have hregistration : (.requestSink, k.sinkId, none) ∈
          (.requestSink k :: after).filterMap ElementConfig.registration? :=
        List.mem_filterMap.2 ⟨_, List.mem_cons_self, rfl⟩
      have hid : k'.sinkId = k.sinkId := howner
      rw [hid] at hregistration'
      exact absurd rfl (hdisjoint _ hregistration' _ hregistration)

end Config

namespace Pipeline

variable {config : Config} {c : PipelineConfig} {consumer : Nat → Consumer} {direct : Nat → Bool}
  {p : Pipeline} {s : Switchboard} {e : Element} {before after : List Element}

/-- **The first sink of an id takes its events.** If nothing is wrong with a document, and one of
its pipelines was built and started, then an event for the id of a sink is handled by the first sink
of that id in the pipeline. This is the sink itself unless another one of its id stands before it,
and then one of the two answers requests. -/
theorem publish_of_accepted (hproblems : config.problems = []) (hc : c ∈ config.pipelines)
    (hp : ofConfig c consumer direct = .ok p) (hstart : (p.start s).2.2 = .ok ())
    (helements : (p.start s).1.elements = before ++ e :: after) (hsink : e.isSink = true) :
    e.active = true ∧
      (∀ e' ∈ before, e'.Answers e.id → e'.kind = .responseSink ∨ e.kind = .responseSink) ∧
      ∃ before' first after', before ++ [e] = before' ++ first :: after' ∧ first.Answers e.id ∧
        (∀ e' ∈ before', ¬ e'.Answers e.id) ∧
        ((∀ e' ∈ before, ¬ e'.Answers e.id) → first = e) ∧
        ∀ (b : Bridge) (event : Event),
          b.publish (p.start s).1 e.id event = b.handle first event := by
  obtain ⟨hidle, hconfigs, -⟩ := sound_of_ofConfig hp
  obtain ⟨hrunning, hstarted⟩ := started hidle hstart
  have hmem : e ∈ (p.start s).1.elements := by simp [helements]
  refine ⟨((p.start s).1.active_eq e hmem).trans hrunning, ?_, ?_⟩
  · intro e' he' hanswers
    rw [hconfigs, helements, List.map_append, List.map_cons] at hstarted
    exact Config.kind_of_same_owner hproblems hc hstarted.symm (List.mem_map_of_mem he') hsink
      hanswers.1 hanswers.2
  · have he : e ∈ before ++ [e] := by simp
    obtain ⟨before', first, after', hsplit, hfirst, hnone⟩ := exists_first he ⟨hsink, rfl⟩
    have hwhole : (p.start s).1.elements = before' ++ first :: (after' ++ after) := by
      rw [helements, List.append_cons, hsplit, List.append_assoc, List.cons_append]
    refine ⟨before', first, after', hsplit, hfirst, hnone, fun hbefore => ?_, fun b event => ?_⟩
    · have hmem : first ∈ before ++ [e] := by simp [hsplit]
      rcases List.mem_append.1 hmem with h | h
      · exact absurd hfirst (hbefore first h)
      · exact List.mem_singleton.1 h
    · rw [Bridge.publish, sink_eq_ok hrunning hwhole hfirst hnone]

/-- A source, two sinks that answer its requests with different statuses, and a sink of another
id. -/
def desk : PipelineConfig :=
  ⟨"desk",
    [.requestSource ⟨"orders", "/orders", ["message.id"]⟩,
      .responseSink ⟨"orders", "\x7b\x7bmessage.id\x7d\x7d", "", none, 200⟩,
      .responseSink ⟨"orders", "\x7b\x7bmessage.id\x7d\x7d", "", none, 404⟩,
      .requestSink ⟨"press", "http://press/x", none, "", none, [], false, none⟩]⟩

/-- The desk as the only pipeline of a document. -/
def deskAlone : Config := { pipelines := [desk] }

/-- The desk, built. -/
def builtDesk : Except Fault Pipeline :=
  ofConfig desk (fun _ => .steady "clerk") (fun _ => false)

/-- Nothing is wrong with the desk, it can be started, and its last sink takes its events. -/
theorem publish_of_accepted_desk :
    deskAlone.problems = [] ∧
      ∃ p e, builtDesk = .ok p ∧ (p.start .empty).2.2 = .ok () ∧
        e ∈ (p.start .empty).1.elements ∧ e.Answers "press" ∧ e.active = true ∧
        ∀ (b : Bridge) (event : Event),
          b.publish (p.start .empty).1 "press" event = b.handle e event := by
  have hproblems : deskAlone.problems = [] := by decide +kernel
  have hbuilt : builtDesk.map (fun p => ((p.start .empty).2.2,
      (p.start .empty).1.elements.map fun e => (e.isSink, e.id))) =
        .ok (.ok (),
          [(false, "orders"), (true, "orders"), (true, "orders")] ++ [(true, "press")]) := by
    decide +kernel
  obtain ⟨p, hp, hbuilt⟩ := exists_of_map_eq_ok hbuilt
  obtain ⟨hstart, helements⟩ := Prod.mk.inj hbuilt
  obtain ⟨before, last, helements, hbefore, hlast⟩ := List.map_eq_append_iff.1 helements
  obtain ⟨e, rfl, he⟩ := List.map_eq_singleton_iff.1 hlast
  obtain ⟨hsink, hid⟩ := Prod.mk.inj he
  have hother : ∀ e' ∈ before, ¬ e'.Answers e.id := by
    intro e' he' hanswers
    have hmem : (e'.isSink, e'.id) ∈ [(false, "orders"), (true, "orders"), (true, "orders")] :=
      hbefore ▸ List.mem_map_of_mem he'
    rw [hanswers.2, hid] at hmem
    simp at hmem
  obtain ⟨hactive, -, before', first, after', -, -, -, hfirst, hpublish⟩ :=
    publish_of_accepted hproblems List.mem_cons_self hp hstart helements hsink
  rw [hfirst hother, hid] at hpublish
  exact ⟨hproblems, p, e, hp, hstart, by simp [helements], ⟨hsink, hid⟩, hactive, hpublish⟩

/-- A request for the desk. -/
def inquiry : Message := ⟨default, [], [.chunk (Octets.ofString "x")]⟩

/-- A bridge once the pipeline was started and a request came in. -/
def inquired (p : Pipeline) (b : Bridge) : Bridge := (b.start p).1.receive 0 inquiry

/-- An event that answers the request. -/
def refusal : Event :=
  ⟨"none", Metadata.ofPairs [("message.id", .str (MessageId.ofNumber 0))]⟩

/-- The status with which the request was answered, if it was. -/
def statusOf? (b : Bridge) : Option Nat := (b.reply? 0).map Reply.status

/-- Nothing is wrong with the desk, and it can be started. A request waits, and an event for the id
of the second sink answers it with the status of the first one. Handled by the second sink it would
answer it with the status of that. -/
theorem second_not_reached_desk :
    deskAlone.problems = [] ∧
      ∃ b p e, Bridge.new? deskAlone .empty = some b ∧ builtDesk = .ok p ∧
        (b.start p).2.2.isOk = true ∧ (b.start p).2.1.elements[2]? = some e ∧ e.Answers "orders" ∧
        statusOf? ((p.inquired b).publish (b.start p).2.1 "orders" refusal).1 = some 200 ∧
        statusOf? ((p.inquired b).handle e refusal).1 = some 404 := by
  have hproblems : deskAlone.problems = [] := by decide +kernel
  have hsinks : (builtDesk.toOption.bind fun p => (Bridge.new? deskAlone .empty).map fun b =>
      ((b.start p).2.2.isOk, (b.start p).2.1.elements.map fun e => (e.isSink, e.id))) =
      some (true, [(false, "orders"), (true, "orders"), (true, "orders"), (true, "press")]) := by
    decide +kernel
  have hstatus : (builtDesk.toOption.bind fun p => (Bridge.new? deskAlone .empty).map fun b =>
      ((b.start p).2.1.elements[2]?.bind fun e => statusOf? ((p.inquired b).handle e refusal).1,
        statusOf? ((p.inquired b).publish (b.start p).2.1 "orders" refusal).1)) =
      some (some 404, some 200) := by
    decide +kernel
  cases hp : builtDesk with
  | error fault =>
    rw [hp] at hsinks
    cases hsinks
  | ok p =>
    cases hb : Bridge.new? deskAlone .empty with
    | none =>
      rw [hp, hb] at hsinks
      cases hsinks
    | some b =>
      rw [hp, hb] at hsinks hstatus
      obtain ⟨hstart, hsinks⟩ := Prod.mk.inj (Option.some.inj hsinks)
      obtain ⟨hhandle, hpublish⟩ := Prod.mk.inj (Option.some.inj hstatus)
      have hsecond : (b.start p).2.1.elements[2]?.map (fun e => (e.isSink, e.id)) =
          some (true, "orders") := by
        rw [← List.getElem?_map, hsinks]
        rfl
      obtain ⟨e, he, hanswers⟩ := Option.map_eq_some_iff.1 hsecond
      rw [he, Option.bind_some] at hhandle
      exact ⟨hproblems, b, p, e, rfl, rfl, hstart, he, Prod.mk.inj hanswers, hpublish, hhandle⟩

end Pipeline

end Correlator
