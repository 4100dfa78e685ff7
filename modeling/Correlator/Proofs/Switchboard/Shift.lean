import Mathlib.Logic.Relation
import Correlator.Proofs.Switchboard.Restored

/-!
# Response sources that come and go

The table of response sources by its atomic steps. A source that goes is first taken out of the
table, and its forwarder is closed some time after; in between anything may happen.

* `Switchboard.Shift`: one step; `Switchboard.Shifts`: steps one after another.
* `Switchboard.Wired`: every listener that is registered leads to an open forwarder of its own;
  `Switchboard.Shift.wired`: it stays so.
* `Pipeline.shifts_start`, `Pipeline.shifts_shutdown`: the start and the stop of a pipeline are
  such steps one after another.
-/

namespace Correlator

namespace Switchboard

/-! ## Steps -/

/-- A step that the tables take. -/
inductive Shift (s : Switchboard) : Switchboard → Prop
  /-- A response source comes. -/
  | plug (c : ResponseSourceConfig) (pipeline : String) (k : Consumer) {s' : Switchboard} :
      s.plugForwarder c pipeline k = .ok s' → Shift s s'
  /-- A response source is taken out of the table. -/
  | withdraw (key : Key) (pipeline : String) {l : Listener Nat} {responses : Registry Nat} :
      s.responses.unregister? key pipeline = some (l, responses) → Shift s { s with responses }
  /-- A forwarder is closed that is in the table no longer. -/
  | close (n : Nat) : (∀ l ∈ s.responses.listeners, l.handler ≠ n) →
      Shift s { s with forwarderList := s.forwarderList.modify n Forwarder.close }
  /-- The tables for requests change. -/
  | elsewhere {s' : Switchboard} : s'.responses = s.responses →
      s'.forwarderList = s.forwarderList → Shift s s'

/-- Steps one after another. -/
abbrev Shifts : Switchboard → Switchboard → Prop := Relation.ReflTransGen Shift

/-- Every listener that is registered leads to an open forwarder, of its own. -/
structure Wired (s : Switchboard) : Prop where
  handlers_nodup : (s.responses.listeners.map (·.handler)).Nodup
  leads : ∀ l ∈ s.responses.listeners, ∃ k, s.forwarder? l.handler = some ⟨k, true⟩

variable {s s' : Switchboard} {c : ResponseSourceConfig} {pipeline : String} {k : Consumer}

theorem wired_empty : Wired .empty where
  handlers_nodup := .nil
  leads := by simp [empty, Registry.empty]

theorem Wired.handler_lt (hs : s.Wired) {l : Listener Nat} (hl : l ∈ s.responses.listeners) :
    l.handler < s.forwarderList.length := by
  obtain ⟨k, hk⟩ := hs.leads l hl
  exact (List.getElem?_eq_some_iff.1 hk).1

/-- A response source that comes has a forwarder of its own. -/
theorem Wired.plugForwarder (hs : s.Wired) (h : s.plugForwarder c pipeline k = .ok s') :
    s'.Wired := by
  obtain ⟨responses, hr, rfl⟩ := plugForwarder_eq_ok h
  obtain ⟨-, rfl⟩ := Registry.register_eq_ok.1 hr
  have hold : Extends (fun _ => True) s.forwarderList (s.forwarderList ++ [⟨k, true⟩]) :=
    .snoc trivial _
  constructor
  · have hfresh : s.forwarderList.length ∉ s.responses.listeners.map (·.handler) := by
      intro hmem
      obtain ⟨l, hl, he⟩ := List.mem_map.1 hmem
      exact absurd he (Nat.ne_of_lt (hs.handler_lt hl))
    rw [List.map_append]
    exact (List.nodup_append_comm.1 (List.nodup_cons.2 ⟨hfresh, hs.handlers_nodup⟩))
  · intro l hl
    rcases List.mem_append.1 hl with hl | hl
    · obtain ⟨k', hk⟩ := hs.leads l hl
      exact ⟨k', hold.getElem?_eq_some hk⟩
    · cases List.mem_singleton.1 hl
      exact ⟨k, List.getElem?_concat_length⟩

/-- After any step every listener that is registered leads to an open forwarder of its own. -/
theorem Shift.wired (h : s.Shift s') (hs : s.Wired) : s'.Wired := by
  cases h with
  | plug c pipeline k hplug => exact hs.plugForwarder hplug
  | withdraw key pipeline hu =>
    obtain ⟨-, -, rfl⟩ := Registry.unregister?_eq_some.1 hu
    have hsub := List.filter_sublist (p := fun l : Listener Nat => l.key ≠ key)
      (l := s.responses.listeners)
    exact ⟨hs.handlers_nodup.sublist (hsub.map _), fun l hl => hs.leads l (hsub.subset hl)⟩
  | close n hn =>
    refine ⟨hs.handlers_nodup, fun l hl => ?_⟩
    obtain ⟨k, hk⟩ := hs.leads l hl
    exact ⟨k, (List.getElem?_modify_ne _ _ (hn l hl).symm).trans hk⟩
  | elsewhere hr hf =>
    refine ⟨hr ▸ hs.handlers_nodup, fun l hl => ?_⟩
    obtain ⟨k, hk⟩ := hs.leads l (hr ▸ hl)
    exact ⟨k, by rw [forwarder?, hf]; exact hk⟩

theorem Shifts.wired (h : s.Shifts s') (hs : s.Wired) : s'.Wired := by
  induction h with
  | refl => exact hs
  | tail _ hstep ih => exact hstep.wired ih

/-! ## Sources that come and go -/

/-- A response source that goes is taken out of the table, and then its forwarder is closed. -/
theorem shifts_pullForwarder (hs : s.Wired) (c : ResponseSourceConfig) (pipeline : String) :
    s.Shifts (s.pullForwarder c pipeline) := by
  unfold pullForwarder
  split
  · rename_i l responses hu
    refine .tail (.single (.withdraw _ _ hu)) (.close l.handler fun l' hl' he => ?_)
    obtain ⟨hfound, -, rfl⟩ := Registry.unregister?_eq_some.1 hu
    have hl : l ∈ s.responses.listeners := List.mem_of_find?_eq_some hfound
    obtain ⟨hmem, hkey⟩ := List.mem_filter.1 hl'
    have hsame : l' = l := List.inj_on_of_nodup_map hs.handlers_nodup hmem hl he
    exact of_decide_eq_true hkey (hsame ▸ Registry.key_of_lookup? hfound)
  · exact .refl

theorem unregisterExchange_responses (s : Switchboard) (key : Key) (pipeline : String) :
    (s.unregisterExchange key pipeline).responses = s.responses ∧
      (s.unregisterExchange key pipeline).forwarderList = s.forwarderList := by
  unfold unregisterExchange
  split
  · exact ⟨rfl, rfl⟩
  · exact ⟨rfl, rfl⟩

/-- A request source that comes leaves the table of response sources alone. -/
theorem shift_plugExchange (s : Switchboard) (c : RequestSourceConfig) (pipeline : String)
    (k : Consumer) : s.Shift (s.plugExchange c pipeline k).1 := by
  unfold plugExchange
  dsimp only
  split
  · exact .elsewhere rfl rfl
  · split
    · obtain ⟨hr, hf⟩ := unregisterExchange_responses _ (.plain c.sourceId) pipeline
      exact .elsewhere hr hf
    · exact .elsewhere rfl rfl

/-- So does one that goes. -/
theorem shift_pullExchange (s : Switchboard) (c : RequestSourceConfig) (pipeline : String) :
    s.Shift (s.pullExchange c pipeline) := by
  obtain ⟨hr, hf⟩ := unregisterExchange_responses
    { s with routes := (s.routes.unbind? c.path pipeline).getD s.routes } (.plain c.sourceId)
    pipeline
  exact .elsewhere hr hf

end Switchboard

namespace Element

variable {s : Switchboard}

theorem shifts_plug (e : Element) (pipeline : String) (s : Switchboard) :
    s.Shifts (e.plug pipeline s).1 := by
  obtain ⟨part, active⟩ := e
  cases part with
  | requestSink sink => exact .refl
  | responseSink sink => exact .refl
  | requestSource c k => exact .single (s.shift_plugExchange c pipeline k)
  | responseSource c k =>
    simp only [plug]
    split
    · rename_i s' hs'
      exact .single (.plug c pipeline k hs')
    · exact .refl

theorem shifts_stop (hs : s.Wired) (e : Element) (pipeline : String) :
    s.Shifts (e.stop pipeline s) := by
  obtain ⟨part, active⟩ := e
  unfold stop
  split
  · cases part with
    | requestSink sink => exact .refl
    | responseSink sink => exact .refl
    | requestSource c k => exact .single (s.shift_pullExchange c pipeline)
    | responseSource c k => exact Switchboard.shifts_pullForwarder hs c pipeline
  · exact .refl

end Element

namespace Pipeline

variable {s : Switchboard}

theorem shifts_stopAll (hs : s.Wired) (name : String) (es : List Element) :
    s.Shifts (stopAll name s es) := by
  induction es generalizing s with
  | nil => exact .refl
  | cons e es ih =>
    have hstop := e.shifts_stop hs name
    exact hstop.trans (ih (hstop.wired hs))

theorem shifts_startFrom (hs : s.Wired) (name : String) (started rest : List Element) :
    s.Shifts (startFrom name s started rest).1 := by
  induction rest generalizing s started with
  | nil => exact .refl
  | cons e rest ih =>
    have hplug := e.shifts_plug name s
    unfold startFrom
    split
    · rename_i s' hs'
      rw [hs'] at hplug
      exact hplug.trans (ih (hplug.wired hs) _)
    · rename_i s' fault hs'
      rw [hs'] at hplug
      exact hplug.trans (shifts_stopAll (hplug.wired hs) name started)

/-- The start of a pipeline, be it in vain, is steps one after another. -/
theorem shifts_start (hs : s.Wired) (p : Pipeline) : s.Shifts (p.start s).2.1 := by
  unfold start
  split
  · exact .refl
  · exact shifts_startFrom hs p.name [] p.elements

/-- So is its stop. -/
theorem shifts_shutdown (hs : s.Wired) (p : Pipeline) : s.Shifts (p.shutdown s).2 := by
  unfold shutdown
  split
  · exact shifts_stopAll hs p.name _
  · exact .refl

end Pipeline

end Correlator
