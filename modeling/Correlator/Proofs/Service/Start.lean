import Correlator.Proofs.Pipeline.Built
import Correlator.Proofs.Switchboard.Places
import Correlator.Service

/-!
# The start of a service

The pipelines of a configuration are built and started one after another, on tables in which
nothing is registered. Whether all of them can be started is known from the document: it is so
just when no clash is reported.

* `Service.startPipeline_eq`: what it comes to to start a pipeline that can be built.
* `Service.covers_startPipeline`, `Service.not_nodup_of_startPipeline`: a pipeline that is started
  takes its places; if it cannot be started then one of them is another's.
* `Service.not_nodup_iff_startFrom`: the same for pipelines one after another, both ways.
* `Service.holds_startFrom`: if they cannot all be started, then nothing is held any more.
* **`Service.fails_iff_clash`**: the start fails just when a clash is reported, and then all tables
  are empty.

A pipeline that fails takes back what it had registered itself, and those before it are shut down.
The first of these is `Pipeline.restored_startFrom`; that the second leaves nothing is read off
what is held (`Pipeline.holds_shutdown`).
-/

namespace Correlator.Service

variable {b : Bridge} {c : PipelineConfig} {p : Pipeline} {places : List Place}
  {started : List Pipeline} {rest : List PipelineConfig} {fault : Fault}

/-- The pipeline that is built of its configuration at the start. -/
abbrev build (c : PipelineConfig) : Except Fault Pipeline :=
  Pipeline.ofConfig c (consumer c) fun _ => false

/-! ## A pipeline -/

theorem startPipeline_eq (hp : build c = .ok p) (b : Bridge) :
    startPipeline b c =
      ({ b with switchboard := (p.start b.switchboard).2.1 },
        (p.start b.switchboard).2.2.map fun _ => (p.start b.switchboard).1) := by
  unfold build at hp
  unfold startPipeline
  rw [hp]
  rfl

theorem places_of_build (hp : build c = .ok p) :
    p.elements.flatMap (fun e => e.config.places) = c.places := by
  obtain ⟨-, hconfigs, -⟩ := Pipeline.sound_of_ofConfig hp
  rw [PipelineConfig.places, ← hconfigs, List.flatMap_map]

/-- A pipeline that is started takes its places. -/
theorem covers_startPipeline (hp : build c = .ok p) (h : b.switchboard.Covers places)
    (hok : (p.start b.switchboard).2.2 = .ok ()) :
    (p.start b.switchboard).2.1.Covers (places ++ c.places) := by
  obtain ⟨hidle, -, -⟩ := Pipeline.sound_of_ofConfig hp
  obtain ⟨-, -, -, hresult⟩ := Pipeline.start_eq hidle b.switchboard
  rw [hresult] at hok ⊢
  rw [← places_of_build hp]
  exact Pipeline.covers_startFrom h hok

/-- If it cannot be started, then one of its places is another's. -/
theorem not_nodup_of_startPipeline (hp : build c = .ok p) (h : b.switchboard.Covers places)
    (herror : (p.start b.switchboard).2.2 = .error fault) : ¬ (places ++ c.places).Nodup := by
  obtain ⟨hidle, -, -⟩ := Pipeline.sound_of_ofConfig hp
  obtain ⟨-, -, -, hresult⟩ := Pipeline.start_eq hidle b.switchboard
  rw [hresult] at herror
  rw [← places_of_build hp]
  exact Pipeline.not_nodup_of_startFrom h herror

/-! ## Pipelines one after another -/

/-- Pipelines cannot all be started just when two of the places are one. -/
theorem not_nodup_iff_startFrom (hrest : ∀ c ∈ rest, ∃ p, build c = .ok p)
    (h : b.switchboard.Covers places) :
    ¬ (places ++ rest.flatMap PipelineConfig.places).Nodup ↔
      ∃ fault, (startFrom b started rest).2 = .error fault := by
  induction rest generalizing b started places with
  | nil => simpa [startFrom] using h.nodup
  | cons c rest ih =>
    obtain ⟨⟨p, hp⟩, hrest⟩ := List.forall_mem_cons.1 hrest
    rw [List.flatMap_cons, ← List.append_assoc]
    unfold startFrom
    rw [startPipeline_eq hp]
    rcases hr : (p.start b.switchboard).2.2 with fault | _
    · have hclash := not_nodup_of_startPipeline hp h hr
      exact iff_of_true (fun hnodup => hclash hnodup.of_append_left) ⟨fault, rfl⟩
    · exact ih hrest (covers_startPipeline hp h hr)

theorem held_eq_nil (hp : p.running = false) : p.held = [] := by
  simp [Pipeline.held, hp]

/-- A pipeline that was shut down holds nothing. -/
theorem held_shutdown (p : Pipeline) (s : Switchboard) : (p.shutdown s).1.held = [] :=
  held_eq_nil (p.running_shutdown s)

/-- Pipelines that are shut down hold nothing any more. -/
theorem holds_shutdownAll (h : b.switchboard.Holds (started.flatMap Pipeline.held)) :
    (shutdownAll b started).switchboard.Holds [] := by
  induction started generalizing b with
  | nil => exact h
  | cons p started ih =>
    have hp := p.holds_shutdown h
    rw [held_shutdown] at hp
    exact ih hp

/-- If pipelines cannot all be started, then nothing is held any more. -/
theorem holds_startFrom (hrest : ∀ c ∈ rest, ∃ p, build c = .ok p)
    (h : b.switchboard.Holds (started.flatMap Pipeline.held))
    (herror : (startFrom b started rest).2 = .error fault) :
    (startFrom b started rest).1.switchboard.Holds [] := by
  induction rest generalizing b started with
  | nil => cases herror
  | cons c rest ih =>
    obtain ⟨⟨p, hp⟩, hrest⟩ := List.forall_mem_cons.1 hrest
    obtain ⟨hidle, -, -⟩ := Pipeline.sound_of_ofConfig hp
    have hbefore : b.switchboard.Holds (p.held ++ started.flatMap Pipeline.held) := by
      rwa [held_eq_nil hidle]
    have hstart := p.holds_start hbefore
    unfold startFrom at herror ⊢
    rw [startPipeline_eq hp] at herror ⊢
    rcases hr : (p.start b.switchboard).2.2 with fault' | _
    · rw [held_eq_nil (Pipeline.running_start_of_error hidle hr)] at hstart
      exact holds_shutdownAll hstart
    · rw [hr] at herror
      exact ih hrest hstart herror

/-- A switchboard that holds nothing is empty, apart from what is closed. -/
theorem tables_eq_nil {s : Switchboard} (h : s.Holds []) :
    s.responses.listeners = [] ∧ s.exchanges.listeners = [] ∧ s.routes.routes = [] := by
  have hmatches := h.matches_parts
  exact ⟨List.map_eq_nil_iff.1 hmatches.responses_perm.eq_nil,
    List.map_eq_nil_iff.1 hmatches.exchanges_perm.eq_nil,
    List.map_eq_nil_iff.1 hmatches.routes_perm.eq_nil⟩

/-! ## The pipelines of a configuration -/

/-- **A start fails just when a clash is reported.** All pipelines of a configuration can be
built. Then they cannot all be started on empty tables just when the document asks for an id, a
path or a key twice; and when the start has failed, the tables are empty again. -/
theorem fails_iff_clash {b : Bridge} {c : Config} (hb : b.switchboard = .empty)
    (hc : ∀ p ∈ c.pipelines, ∃ built, build p = .ok built) :
    ((∃ problem ∈ c.problems, problem.isClash = true) ↔
        ∃ fault, (start b c).2 = .error fault) ∧
      ∀ fault, (start b c).2 = .error fault →
        (start b c).1.switchboard.responses.listeners = [] ∧
        (start b c).1.switchboard.exchanges.listeners = [] ∧
        (start b c).1.switchboard.routes.routes = [] := by
  have hsound : ∀ p ∈ c.pipelines, ∀ e ∈ p.elements, e.IsSound := fun p hp => by
    obtain ⟨built, hbuilt⟩ := hc p hp
    exact (Pipeline.sound_of_ofConfig hbuilt).2.2
  have hcovers : b.switchboard.Covers [] := hb ▸ .empty
  have hholds : b.switchboard.Holds [] := hb ▸ .empty
  refine ⟨(Config.exists_clash_iff hsound).trans ?_, fun fault herror => ?_⟩
  · exact not_nodup_iff_startFrom hc hcovers
  · exact tables_eq_nil (holds_startFrom hc hholds herror)

/-- Two pipelines, the second of which asks for a path of the first. The sources of responses do
not clash, since one of them takes those of one status. -/
def market : Config :=
  { pipelines := [
      ⟨"shop", [
        .requestSource ⟨"orders", "/shop", []⟩, .responseSource ⟨"payments", none, false⟩,
        .responseSource ⟨"payments", some 200, false⟩]⟩,
      ⟨"desk", [.requestSource ⟨"refunds", "/shop", []⟩]⟩] }

/-- A bridge for them on which nothing has happened. -/
def hall : Bridge := (Bridge.new? market .empty).get rfl

/-- The path is reported; so the second pipeline cannot be started, and the first one leaves
nothing behind. -/
theorem fails_iff_clash_market :
    market.problems = [.duplicatePath "/shop"] ∧
      (∃ fault, (start hall market).2 = .error fault) ∧
      (start hall market).1.switchboard.responses.listeners = [] ∧
      (start hall market).1.switchboard.exchanges.listeners = [] ∧
      (start hall market).1.switchboard.routes.routes = [] := by
  have hbuild : ∀ p ∈ market.pipelines, ∃ built, build p = .ok built := by
    simp only [market, List.forall_mem_cons]
    exact ⟨⟨_, rfl⟩, ⟨_, rfl⟩, nofun⟩
  have hproblems : market.problems = [.duplicatePath "/shop"] := by decide +kernel
  obtain ⟨hfails, hempty⟩ := fails_iff_clash (b := hall) rfl hbuild
  obtain ⟨fault, herror⟩ := hfails.1 ⟨.duplicatePath "/shop", by simp [hproblems], rfl⟩
  exact ⟨hproblems, ⟨fault, herror⟩, hempty fault herror⟩

end Correlator.Service
