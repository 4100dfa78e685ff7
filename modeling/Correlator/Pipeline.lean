import Correlator.Element.Basic
import Correlator.Switchboard

/-!
# Pipelines

Elements that are started and stopped together. The name of a pipeline is the owner of whatever
its elements register.

* `Pipeline.ofConfig`: a pipeline of elements, none of them active.
* `Pipeline.start`: its elements started one after another. If one of them cannot be started,
  those before it are stopped again, last element first.
* `Pipeline.shutdown`: its elements stopped, last element first, so that it is as it was built
  (`Pipeline.anew`).
* `Pipeline.sink`: the sink of an id, which has to be running.
-/

namespace Correlator

namespace Element

/-- What an element registers on behalf of its pipeline. -/
def plug (e : Element) (pipeline : String) (s : Switchboard) : Switchboard × Except Fault Unit :=
  match e.part with
  | .requestSink _ => (s, .ok ())
  | .responseSink _ => (s, .ok ())
  | .requestSource c consumer => s.plugExchange c pipeline consumer
  | .responseSource c consumer =>
    match s.plugForwarder c pipeline consumer with
    | .ok s => (s, .ok ())
    | .error fault => (s, .error fault)

/-- What an element has registered taken out again. -/
def unplug (e : Element) (pipeline : String) (s : Switchboard) : Switchboard :=
  match e.part with
  | .requestSink _ => s
  | .responseSink _ => s
  | .requestSource c _ => s.pullExchange c pipeline
  | .responseSource c _ => s.pullForwarder c pipeline

/-- An active element stopped on behalf of its pipeline. -/
def stop (e : Element) (pipeline : String) (s : Switchboard) : Switchboard :=
  if e.active then e.unplug pipeline s else s

/-- The element, active. -/
def busy (e : Element) : Element := { e with active := true }

/-- The element, not active. -/
def idle (e : Element) : Element := { e with active := false }

@[simp] theorem busy_active (e : Element) : e.busy.active = true := rfl

@[simp] theorem idle_active (e : Element) : e.idle.active = false := rfl

theorem idle_eq_self {e : Element} (h : e.active = false) : e.idle = e := by
  cases e
  cases h
  rfl

@[simp] theorem idle_busy (e : Element) : e.busy.idle = e.idle := rfl

@[simp] theorem idle_idle (e : Element) : e.idle.idle = e.idle := rfl

theorem active_of_map {r : Except Fault α} {f : α → Element} (hf : ∀ a, (f a).active = false)
    {e : Element} (h : r.map f = .ok e) : e.active = false := by
  cases r with
  | error fault => cases h
  | ok a =>
    cases h
    exact hf a

/-- The element of a configuration is not active yet. -/
theorem active_of_ofConfig {c : ElementConfig} {consumer : Consumer} {direct : Bool} {e : Element}
    (h : ofConfig c consumer direct = .ok e) : e.active = false := by
  unfold ofConfig at h
  split at h <;> exact active_of_map (fun _ => rfl) h

end Element

/-- Elements that are started and stopped together. -/
@[ext]
structure Pipeline where
  name : String
  elements : List Element
  running : Bool
  /-- The elements are active just when the pipeline is running. -/
  active_eq : ∀ e ∈ elements, e.active = running

namespace Pipeline

/-! ## From configurations -/

/-- The elements of configurations; the consumer of each, and whether a request sink uses it, go
by its place. -/
def elementsOf (consumer : Nat → Consumer) (direct : Nat → Bool) (n : Nat) :
    List ElementConfig → Except Fault (List Element)
  | [] => .ok []
  | c :: rest => do
    let e ← Element.ofConfig c (consumer n) (direct n)
    let es ← elementsOf consumer direct (n + 1) rest
    return e :: es

theorem active_of_mem_elementsOf {consumer : Nat → Consumer} {direct : Nat → Bool} {n : Nat}
    {cs : List ElementConfig} {es : List Element} (h : elementsOf consumer direct n cs = .ok es) :
    ∀ e ∈ es, e.active = false := by
  induction cs generalizing n es with
  | nil =>
    cases h
    simp
  | cons c rest ih =>
    simp only [elementsOf, bind, Except.bind, pure, Except.pure] at h
    split at h
    · cases h
    · rename_i e he
      split at h
      · cases h
      · rename_i es' hes
        cases h
        exact List.forall_mem_cons.2 ⟨Element.active_of_ofConfig he, ih hes⟩

/-- The pipeline of a configuration. -/
def ofConfig (c : PipelineConfig) (consumer : Nat → Consumer) (direct : Nat → Bool) :
    Except Fault Pipeline :=
  match h : elementsOf consumer direct 0 c.elements with
  | .ok elements => .ok ⟨c.name, elements, false, active_of_mem_elementsOf h⟩
  | .error fault => .error fault

/-! ## Start and stop -/

/-- Elements stopped one after another. -/
def stopAll (name : String) (s : Switchboard) (elements : List Element) : Switchboard :=
  elements.foldl (fun s e => e.stop name s) s

/-- Elements started one after another, after those that were started before, last of them first.
If one cannot be started, all that were are stopped again. -/
def startFrom (name : String) (s : Switchboard) (started : List Element) :
    List Element → Switchboard × List Element × Except Fault Unit
  | [] => (s, started.reverse, .ok ())
  | e :: rest =>
    match e.plug name s with
    | (s, .ok ()) => startFrom name s (e.busy :: started) rest
    | (s, .error fault) =>
      (stopAll name s started, (started.map Element.idle).reverse ++ e :: rest, .error fault)

/-- Afterwards all elements are active, or else none is. -/
theorem active_of_mem_startFrom {name : String} {s : Switchboard} {started rest : List Element}
    (hs : ∀ e ∈ started, e.active = true) (hr : ∀ e ∈ rest, e.active = false) :
    ∀ e ∈ (startFrom name s started rest).2.1,
      e.active = (startFrom name s started rest).2.2.isOk := by
  induction rest generalizing s started with
  | nil => simpa [startFrom, Except.isOk, Except.toBool] using hs
  | cons e rest ih =>
    obtain ⟨he, hr⟩ := List.forall_mem_cons.1 hr
    unfold startFrom
    split
    · exact ih (List.forall_mem_cons.2 ⟨e.busy_active, hs⟩) hr
    · simp only [List.mem_append, List.mem_reverse, List.mem_map, List.mem_cons]
      rintro e' (⟨e₀, -, rfl⟩ | rfl | h)
      · rfl
      · exact he
      · exact hr e' h

/-- The pipeline started; one that is running goes on. -/
def start (p : Pipeline) (s : Switchboard) : Pipeline × Switchboard × Except Fault Unit :=
  if h : p.running then (p, s, .ok ())
  else
    let r := startFrom p.name s [] p.elements
    let active_eq := active_of_mem_startFrom (by simp) fun e he =>
      (p.active_eq e he).trans (by simpa using h)
    (⟨p.name, r.2.1, r.2.2.isOk, active_eq⟩, r.1, r.2.2)

/-- The pipeline as it was when it was built. -/
def anew (p : Pipeline) : Pipeline := ⟨p.name, p.elements.map Element.idle, false, by simp⟩

/-- The pipeline stopped; one that is not running is left alone. -/
def shutdown (p : Pipeline) (s : Switchboard) : Pipeline × Switchboard :=
  if p.running then (p.anew, stopAll p.name s p.elements.reverse) else (p, s)

/-- The first sink of an id, if the pipeline is running. -/
def sink (p : Pipeline) (id : String) : Except Fault Element :=
  if !p.running then
    .error (.configuration ("pipeline '" ++ p.name ++ "' is not running"))
  else
    match p.elements.find? fun e => e.isSink && e.id == id with
    | some e => .ok e
    | none =>
      .error (.configuration ("pipeline '" ++ p.name ++ "' has no sink '" ++ id ++ "'"))

end Pipeline

end Correlator
