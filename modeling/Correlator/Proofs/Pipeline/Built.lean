import Correlator.Pipeline
import Correlator.Proofs.Config.Clashes

/-!
# Pipelines as they are built

What is known of a configuration once a pipeline was built of it.

* `exists_of_bind_eq_ok`, `of_guard_eq_ok`: what a computation that comes to an end has passed.
* `Element.sound_of_ofConfig`: an element keeps its configuration, and that is sound.
* **`Pipeline.sound_of_ofConfig`**: a pipeline is not running yet, it has the elements that were
  configured in their order, and all of them are sound.
-/

namespace Correlator

/-! ## Computations that may fail -/

section Except

variable {α β : Type} {fault : Fault} {b : β}

theorem exists_of_isOk {x : Except Fault α} (h : x.isOk = true) : ∃ a, x = .ok a := by
  cases x with
  | error fault => cases h
  | ok a => exact ⟨a, rfl⟩

theorem ok_bind (a : α) (f : α → Except Fault β) : Except.ok a >>= f = f a := rfl

theorem exists_of_bind_eq_ok {x : Except Fault α} {f : α → Except Fault β}
    (h : x >>= f = .ok b) : ∃ a, x = .ok a ∧ f a = .ok b := by
  cases x with
  | error fault => cases h
  | ok a => exact ⟨a, rfl, h⟩

theorem exists_of_map_eq_ok {x : Except Fault α} {f : α → β} (h : x.map f = .ok b) :
    ∃ a, x = .ok a ∧ f a = b := by
  cases x with
  | error fault => cases h
  | ok a =>
    cases h
    exact ⟨a, rfl, rfl⟩

/-- What comes after a check comes to an end only if nothing was wrong. -/
theorem of_guard_eq_ok {wrong : Bool} {f : Unit → Except Fault β}
    (h : (if wrong = true then throw fault >>= f else f ()) = .ok b) :
    wrong = false ∧ f () = .ok b := by
  cases wrong with
  | true => cases h
  | false => exact ⟨rfl, h⟩

end Except

/-! ## Elements -/

theorem RequestSink.sound_of_ofConfig {c : RequestSinkConfig} {consumer? : Option Consumer}
    {s : RequestSink} (h : ofConfig c consumer? = .ok s) :
    s.config = c ∧ Text.isBlank c.sinkId = false := by
  unfold ofConfig at h
  obtain ⟨hid, h⟩ := of_guard_eq_ok h
  obtain ⟨-, h⟩ := of_guard_eq_ok h
  obtain ⟨method, -, h⟩ := exists_of_bind_eq_ok h
  obtain ⟨url?, -, h⟩ := exists_of_bind_eq_ok h
  obtain ⟨headers?, -, h⟩ := exists_of_bind_eq_ok h
  cases h
  exact ⟨rfl, hid⟩

theorem ResponseSink.sound_of_ofConfig {c : ResponseSinkConfig} {s : ResponseSink}
    (h : ofConfig c = .ok s) : s.config = c ∧ Text.isBlank c.sourceId = false := by
  unfold ofConfig at h
  obtain ⟨hid, h⟩ := of_guard_eq_ok h
  obtain ⟨-, h⟩ := of_guard_eq_ok h
  obtain ⟨headers?, -, h⟩ := exists_of_bind_eq_ok h
  cases h
  exact ⟨rfl, hid⟩

theorem sound_of_checkRequestSource {c : RequestSourceConfig} (h : checkRequestSource c = .ok ()) :
    Text.isBlank c.sourceId = false ∧ Config.isRooted c.path = true := by
  unfold checkRequestSource at h
  obtain ⟨hid, h⟩ := of_guard_eq_ok h
  refine ⟨hid, ?_⟩
  split at h
  · cases h
  · rename_i hpath
    simpa [Config.isRooted] using hpath

theorem sound_of_checkResponseSource {c : ResponseSourceConfig}
    (h : checkResponseSource c = .ok ()) : Text.isBlank c.sinkId = false := by
  unfold checkResponseSource at h
  split at h
  · cases h
  · rename_i hid
    exact Bool.eq_false_iff.2 hid

/-- An element that was built keeps its configuration, and that is sound. -/
theorem Element.sound_of_ofConfig {c : ElementConfig} {consumer : Consumer} {direct : Bool}
    {e : Element} (h : ofConfig c consumer direct = .ok e) : e.config = c ∧ c.IsSound := by
  cases c with
  | requestSink c =>
    obtain ⟨s, hs, rfl⟩ := exists_of_map_eq_ok h
    obtain ⟨hconfig, hid⟩ := RequestSink.sound_of_ofConfig hs
    exact ⟨congrArg ElementConfig.requestSink hconfig, hid, nofun⟩
  | responseSink c =>
    obtain ⟨s, hs, rfl⟩ := exists_of_map_eq_ok h
    obtain ⟨hconfig, hid⟩ := ResponseSink.sound_of_ofConfig hs
    exact ⟨congrArg ElementConfig.responseSink hconfig, hid, nofun⟩
  | requestSource c =>
    obtain ⟨_, hc, rfl⟩ := exists_of_map_eq_ok h
    obtain ⟨hid, hpath⟩ := sound_of_checkRequestSource hc
    refine ⟨rfl, hid, fun c' hc' => ?_⟩
    cases hc'
    exact hpath
  | responseSource c =>
    obtain ⟨_, hc, rfl⟩ := exists_of_map_eq_ok h
    exact ⟨rfl, sound_of_checkResponseSource hc, nofun⟩

/-! ## Pipelines -/

namespace Pipeline

variable {consumer : Nat → Consumer} {direct : Nat → Bool}

theorem sound_of_elementsOf {n : Nat} {cs : List ElementConfig} {es : List Element}
    (h : elementsOf consumer direct n cs = .ok es) :
    es.map Element.config = cs ∧ ∀ c ∈ cs, c.IsSound := by
  induction cs generalizing n es with
  | nil =>
    cases h
    exact ⟨rfl, by simp⟩
  | cons c rest ih =>
    obtain ⟨e, he, h⟩ := exists_of_bind_eq_ok h
    obtain ⟨es', hes, h⟩ := exists_of_bind_eq_ok h
    cases h
    obtain ⟨hconfig, hc⟩ := Element.sound_of_ofConfig he
    obtain ⟨hconfigs, hrest⟩ := ih hes
    exact ⟨by rw [List.map_cons, hconfig, hconfigs], List.forall_mem_cons.2 ⟨hc, hrest⟩⟩

/-- **A pipeline that was built is what was configured.** It is not running yet. -/
theorem sound_of_ofConfig {c : PipelineConfig} {p : Pipeline}
    (h : ofConfig c consumer direct = .ok p) :
    p.running = false ∧ p.elements.map Element.config = c.elements ∧
      ∀ e ∈ c.elements, e.IsSound := by
  unfold ofConfig at h
  split at h
  · rename_i es hes
    cases h
    exact ⟨rfl, sound_of_elementsOf hes⟩
  · cases h

end Pipeline

end Correlator
