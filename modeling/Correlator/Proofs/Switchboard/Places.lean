import Correlator.Proofs.Config.Clashes
import Correlator.Proofs.Pipeline.Addressee

/-!
# The places of a switchboard

What the tables hold, seen as one set of places, and how elements come to take them.

* `Switchboard.Has`: a place is taken.
* `Element.has_plug`, `Element.has_of_plug_error`: an element that comes takes its places, all of
  which were free; one that cannot come asked for a place that was taken.
* `Switchboard.Covers`: just these places are taken, and no two of them are one.
* `Pipeline.covers_startFrom`, `Pipeline.not_nodup_of_startFrom`: elements that are started take
  all their places; if they cannot be started then two of the places are one.
-/

namespace Correlator

namespace Switchboard

variable {s t : Switchboard} {o : String} {k : Consumer} {place : Place} {places : List Place}
  {fault : Fault}

/-- Sources of one key take the same responses. -/
theorem responseKey_eq {c c' : ResponseSourceConfig} :
    responseKey c = responseKey c' ↔ c.sinkId = c'.sinkId ∧ c.status? = c'.status? := by
  cases h : c'.status? with
  | none =>
    have hkey : responseKey c' = .plain c'.sinkId := responseKey_eq_plain.2 ⟨rfl, h⟩
    rw [hkey, responseKey_eq_plain]
  | some status =>
    have hkey : responseKey c' = .refined c'.sinkId (Key.statusText status) :=
      responseKey_eq_refined.2 ⟨rfl, h⟩
    rw [hkey, responseKey_eq_refined]

/-! ## Taken places -/

/-- A place is taken. -/
def Has (s : Switchboard) : Place → Prop
  | .id id => s.exchanges.lookup? (.plain id) ≠ none
  | .path path => s.routes.find? path ≠ none
  | .key sinkId status? => s.responses.lookup? (responseKey ⟨sinkId, status?, false⟩) ≠ none

theorem not_has_empty (place : Place) : ¬ Has .empty place := by
  cases place <;> exact not_not.2 rfl

theorem free_of_plugForwarder {c : ResponseSourceConfig} (h : s.plugForwarder c o k = .ok t) :
    ¬ s.Has (.key c.sinkId c.status?) := by
  obtain ⟨responses, hr, -⟩ := plugForwarder_eq_ok h
  exact not_not.2 (Registry.register_eq_ok.1 hr).1

/-- A response source takes its key, and no other place. -/
theorem has_plugForwarder {c : ResponseSourceConfig} (h : s.plugForwarder c o k = .ok t) :
    t.Has place ↔ place = .key c.sinkId c.status? ∨ s.Has place := by
  obtain ⟨responses, hr, rfl⟩ := plugForwarder_eq_ok h
  cases place with
  | id id => simp [Has]
  | path path => simp [Has]
  | key sinkId status? =>
    have hsame : responseKey c = responseKey ⟨sinkId, status?, false⟩ ↔
        Place.key sinkId status? = .key c.sinkId c.status? := by
      rw [responseKey_eq, Place.key.injEq, eq_comm, eq_comm (a := c.status?)]
    simp only [Has, Registry.lookup?_register hr, hsame]
    split <;> simp [*]

theorem has_of_plugForwarder_error {c : ResponseSourceConfig}
    (h : s.plugForwarder c o k = .error fault) : s.Has (.key c.sinkId c.status?) := by
  unfold plugForwarder at h
  split at h
  · cases h
  · rename_i hr
    exact (Registry.register_eq_error.1 hr).1

theorem free_of_plugExchange {c : RequestSourceConfig} (h : s.plugExchange c o k = (t, .ok ())) :
    ¬ s.Has (.path c.path) ∧ ¬ s.Has (.id c.sourceId) := by
  obtain ⟨exchanges, routes, hx, hr, -⟩ := plugExchange_eq_ok h
  exact ⟨not_not.2 (Routes.bind_eq_ok.1 hr).1, not_not.2 (Registry.register_eq_ok.1 hx).1⟩

/-- A request source takes its path and its id, and no other place. -/
theorem has_plugExchange {c : RequestSourceConfig} (h : s.plugExchange c o k = (t, .ok ())) :
    t.Has place ↔ (place = .path c.path ∨ place = .id c.sourceId) ∨ s.Has place := by
  obtain ⟨exchanges, routes, hx, hr, rfl⟩ := plugExchange_eq_ok h
  cases place with
  | id id =>
    have hsame : Key.plain c.sourceId = .plain id ↔ id = c.sourceId := by
      simp [Key.plain, eq_comm]
    simp only [Has, Registry.lookup?_register hx, hsame]
    split <;> simp [*]
  | path path =>
    simp only [Has, Routes.find?_bind hr, eq_comm (a := c.path)]
    split <;> simp [*]
  | key sinkId status? => simp [Has]

theorem has_of_plugExchange_error {c : RequestSourceConfig}
    (h : s.plugExchange c o k = (t, .error fault)) :
    s.Has (.path c.path) ∨ s.Has (.id c.sourceId) := by
  unfold plugExchange at h
  dsimp only at h
  split at h
  · rename_i hx
    exact .inr (Registry.register_eq_error.1 hx).1
  · split at h
    · rename_i hr
      exact .inl (Routes.find?_of_bind_error hr)
    · cases h

end Switchboard

/-! ## Elements that come -/

namespace Element

variable {e : Element} {o : String} {s t : Switchboard} {place : Place} {fault : Fault}

theorem free_of_plug (h : e.plug o s = (t, .ok ())) (hplace : place ∈ e.config.places) :
    ¬ s.Has place := by
  obtain ⟨part, active⟩ := e
  cases part with
  | requestSink sink => cases hplace
  | responseSink sink => cases hplace
  | requestSource c k =>
    obtain ⟨hpath, hid⟩ := Switchboard.free_of_plugExchange h
    simp only [config, ElementConfig.places, List.mem_cons, List.not_mem_nil, or_false] at hplace
    rcases hplace with rfl | rfl
    · exact hpath
    · exact hid
  | responseSource c k =>
    simp only [plug] at h
    split at h
    · rename_i hu
      cases List.mem_singleton.1 hplace
      exact Switchboard.free_of_plugForwarder hu
    · cases h

/-- An element that comes takes its places, and no others. -/
theorem has_plug (h : e.plug o s = (t, .ok ())) :
    t.Has place ↔ place ∈ e.config.places ∨ s.Has place := by
  obtain ⟨part, active⟩ := e
  cases part with
  | requestSink sink =>
    cases h
    simp [config, ElementConfig.places]
  | responseSink sink =>
    cases h
    simp [config, ElementConfig.places]
  | requestSource c k =>
    rw [Switchboard.has_plugExchange h]
    simp [config, ElementConfig.places]
  | responseSource c k =>
    simp only [plug] at h
    split at h
    · rename_i hu
      cases h
      rw [Switchboard.has_plugForwarder hu]
      simp [config, ElementConfig.places]
    · cases h

/-- An element that cannot come asked for a place that is taken. -/
theorem has_of_plug_error (h : e.plug o s = (t, .error fault)) :
    ∃ place ∈ e.config.places, s.Has place := by
  obtain ⟨part, active⟩ := e
  cases part with
  | requestSink sink => cases h
  | responseSink sink => cases h
  | requestSource c k =>
    rcases Switchboard.has_of_plugExchange_error h with hpath | hid
    · exact ⟨_, List.mem_cons_self .., hpath⟩
    · exact ⟨_, List.mem_cons_of_mem _ (List.mem_cons_self ..), hid⟩
  | responseSource c k =>
    simp only [plug] at h
    split at h
    · cases h
    · rename_i hu
      exact ⟨_, List.mem_cons_self .., Switchboard.has_of_plugForwarder_error hu⟩

end Element

/-- An element does not ask for one place twice. -/
theorem ElementConfig.nodup_places (e : ElementConfig) : e.places.Nodup := by
  cases e <;> simp [places]

/-! ## Places taken one after another -/

/-- Just these places are taken, and no two of them are one. -/
structure Switchboard.Covers (s : Switchboard) (places : List Place) : Prop where
  has : ∀ place, s.Has place ↔ place ∈ places
  nodup : places.Nodup

namespace Switchboard.Covers

variable {s t : Switchboard} {places : List Place} {e : Element} {o : String} {fault : Fault}

theorem empty : Covers .empty [] :=
  ⟨fun place => by simp [not_has_empty], .nil⟩

/-- An element that comes takes its places. -/
theorem plug (h : s.Covers places) (ht : e.plug o s = (t, .ok ())) :
    t.Covers (places ++ e.config.places) where
  has place := by
    rw [Element.has_plug ht, h.has, List.mem_append, or_comm]
  nodup := List.nodup_append'.2 ⟨h.nodup, e.config.nodup_places, fun place hold hnew =>
    Element.free_of_plug ht hnew ((h.has place).2 hold)⟩

/-- If it cannot come, then one of its places is another's. -/
theorem not_nodup_of_plug_error (h : s.Covers places) (ht : e.plug o s = (t, .error fault)) :
    ¬ (places ++ e.config.places).Nodup := by
  obtain ⟨place, hnew, hold⟩ := Element.has_of_plug_error ht
  exact fun hnodup => (List.nodup_append'.1 hnodup).2.2 ((h.has place).1 hold) hnew

end Switchboard.Covers

namespace Pipeline

variable {name : String} {t : Switchboard} {started rest : List Element} {places : List Place}
  {fault : Fault}

/-- Elements that are started take all their places. -/
theorem covers_startFrom (h : t.Covers places)
    (hok : (startFrom name t started rest).2.2 = .ok ()) :
    (startFrom name t started rest).1.Covers
      (places ++ rest.flatMap fun e => e.config.places) := by
  induction rest generalizing t started places with
  | nil => simpa [startFrom] using h
  | cons e rest ih =>
    unfold startFrom at hok ⊢
    split at hok
    · rename_i u hu
      have hrest := ih (h.plug hu) hok
      rwa [List.append_assoc] at hrest
    · cases hok

/-- If they cannot be started, then two of the places are one. -/
theorem not_nodup_of_startFrom (h : t.Covers places)
    (herror : (startFrom name t started rest).2.2 = .error fault) :
    ¬ (places ++ rest.flatMap fun e => e.config.places).Nodup := by
  induction rest generalizing t started places with
  | nil => cases herror
  | cons e rest ih =>
    rw [List.flatMap_cons, ← List.append_assoc]
    unfold startFrom at herror
    split at herror
    · rename_i u hu
      exact ih (h.plug hu) herror
    · rename_i u fault' hu
      exact fun hnodup => h.not_nodup_of_plug_error hu hnodup.of_append_left

end Pipeline

end Correlator
