import Mathlib.Data.List.Nodup
import Correlator.Config.Validation

/-!
# Clashes in a configuration

Sources ask for places in the tables that all pipelines share. Sources that ask for one place
clash, wherever in the document they stand.

* `Place`: a place in one of the tables; `ElementConfig.places`, `Config.places`: the places that
  are asked for.
* `Problem.isClash`: whether a problem says that a place is asked for twice.
* `ElementConfig.IsSound`: what an element needs to be built and to be compared with others.
* `Config.Survey.Covers`: a survey has seen some places, and has found a clash just when two of
  them are one. This is kept from element to element (`Config.Survey.Covers.element`).
* **`Config.exists_clash_iff`**: a clash is reported just when a place is asked for twice.

Request sinks register their ids as well, but in none of the tables: two of them with one id are a
problem and no clash.
-/

namespace Correlator

/-! ## Places -/

/-- A place in one of the tables. -/
inductive Place
  /-- The id of a request source, under which its exchange is found. -/
  | id (sourceId : String)
  /-- The path of a request source. -/
  | path (path : String)
  /-- The key of a response source: the id of the sink, and the status if there is one. -/
  | key (sinkId : String) (status? : Option Nat)
  deriving DecidableEq, Repr

/-- The places that an element asks for. -/
def ElementConfig.places : ElementConfig → List Place
  | .requestSink _ => []
  | .responseSink _ => []
  | .requestSource c => [.path c.path, .id c.sourceId]
  | .responseSource c => [.key c.sinkId c.status?]

/-- The places that the elements of a pipeline ask for. -/
def PipelineConfig.places (p : PipelineConfig) : List Place :=
  p.elements.flatMap ElementConfig.places

/-- The places that are asked for, in the order of the document. -/
def Config.places (c : Config) : List Place := c.pipelines.flatMap PipelineConfig.places

/-- Whether a problem says that a place is asked for twice. -/
def Problem.isClash : Problem → Bool
  | .duplicateId .requestSource _ => true
  | .duplicateId .responseSource _ => true
  | .duplicatePath _ => true
  | _ => false

/-- The element has an id, and if it serves a path then one that begins with a slash. -/
def ElementConfig.IsSound (e : ElementConfig) : Prop :=
  Text.isBlank e.owner = false ∧ ∀ c, e = .requestSource c → Config.isRooted c.path = true

namespace Config

namespace Survey

variable {s t : Survey} {r r' : Registration} {place : Place} {places : List Place}

/-! ## What a survey has seen and found -/

/-- A place was asked for. -/
def Has (s : Survey) : Place → Prop
  | .id id => (.requestSource, id, none) ∈ s.registrations
  | .path path => path ∈ s.paths
  | .key id status? => (.responseSource, id, status?) ∈ s.registrations

/-- A place was asked for twice. -/
def hasClash (s : Survey) : Bool := s.found.any Problem.isClash

@[simp] theorem has_report (wrong : Bool) (p : Problem) :
    (s.report wrong p).Has place ↔ s.Has place := by
  cases wrong <;> rfl

@[simp] theorem hasClash_report (wrong : Bool) (p : Problem) :
    (s.report wrong p).hasClash = (wrong && p.isClash || s.hasClash) := by
  cases wrong <;> rfl

theorem mem_register :
    r' ∈ (s.register r).registrations ↔ r' = r ∨ r' ∈ s.registrations := by
  unfold register
  split
  · rename_i h
    have hr : r ∈ s.registrations := List.contains_iff_mem.1 h
    exact ⟨.inr, fun h' => h'.elim (fun he => he ▸ hr) id⟩
  · exact List.mem_cons

theorem paths_register : (s.register r).paths = s.paths := by
  unfold register
  split <;> rfl

theorem hasClash_register : (s.register r).hasClash = true ↔
    r ∈ s.registrations ∧ (Problem.duplicateId r.1 r.2.1).isClash = true ∨ s.hasClash = true := by
  unfold register
  split
  · rename_i h
    simp [List.contains_iff_mem.1 h]
  · rename_i h
    have hr : r ∉ s.registrations := fun hr => h (List.contains_iff_mem.2 hr)
    simp [hr, hasClash]

theorem path_of_mem {path : String} (hpath : isRooted path = true) (h : path ∈ s.paths)
    (sourceId : String) : s.path sourceId path = s.report true (.duplicatePath path) := by
  simp [Survey.path, hpath, h]

theorem path_of_not_mem {path : String} (hpath : isRooted path = true) (h : path ∉ s.paths)
    (sourceId : String) : s.path sourceId path = { s with paths := path :: s.paths } := by
  simp [Survey.path, hpath, h]

theorem has_path {path : String} (hpath : isRooted path = true) (sourceId : String) :
    (s.path sourceId path).Has place ↔ place = .path path ∨ s.Has place := by
  by_cases h : path ∈ s.paths
  · rw [path_of_mem hpath h, has_report]
    exact ⟨.inr, fun h' => h'.elim (fun he => he ▸ h) id⟩
  · rw [path_of_not_mem hpath h]
    cases place <;> simp [Has]

theorem hasClash_path {path : String} (hpath : isRooted path = true) (sourceId : String) :
    (s.path sourceId path).hasClash = true ↔ path ∈ s.paths ∨ s.hasClash = true := by
  by_cases h : path ∈ s.paths
  · rw [path_of_mem hpath h, hasClash_report]
    simp [h, Problem.isClash]
  · rw [path_of_not_mem hpath h]
    simp [h, hasClash]

/-! ## Places seen one after another -/

/-- These places were asked for, and a clash was found just when two of them are one. -/
structure Covers (s : Survey) (places : List Place) : Prop where
  has : ∀ place, s.Has place ↔ place ∈ places
  clash : s.hasClash = true ↔ ¬ places.Nodup

namespace Covers

/-- One place more. -/
theorem add (h : s.Covers places) (hhas : ∀ q, t.Has q ↔ q = place ∨ s.Has q)
    (hclash : t.hasClash = true ↔ s.Has place ∨ s.hasClash = true) :
    t.Covers (places ++ [place]) where
  has q := by
    rw [hhas, h.has, List.mem_append, List.mem_singleton]
    exact or_comm
  clash := by
    rw [hclash, h.has, h.clash, (List.perm_append_singleton place places).nodup_iff,
      List.nodup_cons]
    exact (Decidable.not_and_iff_not_or_not.trans (or_congr_left Decidable.not_not)).symm

/-- A problem that is no clash. -/
theorem report {p : Problem} (h : s.Covers places) (hp : p.isClash = false) (wrong : Bool) :
    (s.report wrong p).Covers places := by
  refine ⟨fun q => (has_report wrong p).trans (h.has q), ?_⟩
  rw [hasClash_report, hp, Bool.and_false, Bool.false_or]
  exact h.clash

theorem register_requestSink (h : s.Covers places) (id : String) :
    (s.register (.requestSink, id, none)).Covers places := by
  refine ⟨fun q => ?_, ?_⟩
  · rw [← h.has]
    cases q <;> simp [Has, mem_register, paths_register]
  · rw [hasClash_register, ← h.clash]
    simp [Problem.isClash]

theorem register_requestSource (h : s.Covers places) (id : String) :
    (s.register (.requestSource, id, none)).Covers (places ++ [.id id]) := by
  refine h.add (fun q => ?_) ?_
  · cases q <;> simp [Has, mem_register, paths_register]
  · rw [hasClash_register]
    simp [Has, Problem.isClash]

theorem register_responseSource (h : s.Covers places) (id : String) (status? : Option Nat) :
    (s.register (.responseSource, id, status?)).Covers (places ++ [.key id status?]) := by
  refine h.add (fun q => ?_) ?_
  · cases q <;> simp [Has, mem_register, paths_register]
  · rw [hasClash_register]
    simp [Has, Problem.isClash]

theorem path {path : String} (h : s.Covers places) (hpath : isRooted path = true)
    (sourceId : String) : (s.path sourceId path).Covers (places ++ [.path path]) :=
  h.add (fun _ => has_path hpath sourceId) (hasClash_path hpath sourceId)

theorem name (h : s.Covers places) (name : String) : (s.name name).Covers places := by
  unfold Survey.name
  split
  · exact h.report rfl true
  · split
    · exact h.report rfl true
    · exact ⟨fun q => by rw [← h.has]; cases q <;> rfl, h.clash⟩

/-- The places of an element more. -/
theorem element {e : ElementConfig} (h : s.Covers places) (he : e.IsSound) (pipeline : String) :
    (s.element pipeline e).Covers (places ++ e.places) := by
  obtain ⟨howner, hpath⟩ := he
  unfold Survey.element
  rw [howner]
  cases e with
  | requestSink c =>
    rw [ElementConfig.places, List.append_nil]
    exact ((h.report rfl _).report rfl _).register_requestSink c.sinkId
  | responseSink c =>
    rw [ElementConfig.places, List.append_nil]
    exact h
  | requestSource c =>
    have hboth := (h.path (hpath c rfl) c.sourceId).register_requestSource c.sourceId
    rwa [List.append_assoc] at hboth
  | responseSource c => exact h.register_responseSource c.sinkId c.status?

theorem elements {es : List ElementConfig} (h : s.Covers places) (hes : ∀ e ∈ es, e.IsSound)
    (pipeline : String) :
    (es.foldl (Survey.element pipeline) s).Covers
      (places ++ es.flatMap ElementConfig.places) := by
  induction es generalizing s places with
  | nil => simpa using h
  | cons e es ih =>
    obtain ⟨he, hes⟩ := List.forall_mem_cons.1 hes
    have hrest := ih (h.element he pipeline) hes
    rwa [List.append_assoc] at hrest

theorem pipelines {ps : List PipelineConfig} (h : s.Covers places)
    (hps : ∀ p ∈ ps, ∀ e ∈ p.elements, e.IsSound) :
    (ps.foldl Survey.pipeline s).Covers (places ++ ps.flatMap PipelineConfig.places) := by
  induction ps generalizing s places with
  | nil => simpa using h
  | cons p ps ih =>
    obtain ⟨hp, hps⟩ := List.forall_mem_cons.1 hps
    have hrest := ih ((h.name p.name).elements hp p.name) hps
    rwa [List.append_assoc] at hrest

end Covers

end Survey

/-! ## The whole document -/

/-- **A clash is reported just when a place is asked for twice**, by one element or another,
in one pipeline or in two. -/
theorem exists_clash_iff {c : Config} (hc : ∀ p ∈ c.pipelines, ∀ e ∈ p.elements, e.IsSound) :
    (∃ problem ∈ c.problems, problem.isClash = true) ↔ ¬ c.places.Nodup := by
  have hstart : Survey.Covers ⟨[], [], [], []⟩ [] :=
    ⟨fun place => by cases place <;> simp [Survey.Has], by simp [Survey.hasClash]⟩
  have hall := (hstart.report (p := .zeroPoolSize) rfl (c.workers.poolSize == 0)).pipelines hc
  refine Iff.trans ?_ hall.clash
  simp [problems, Survey.hasClash]

end Config

end Correlator
