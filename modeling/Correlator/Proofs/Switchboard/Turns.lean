import Mathlib.Logic.Relation
import Correlator.Proofs.Switchboard.Restored

/-!
# Request sources that come and go

The exchanges of a switchboard by the steps that elements take. A request source comes with an
exchange of its own, and when it goes its exchange is disconnected; other elements have none.

* `Switchboard.Turn`: one step; `Switchboard.Turns`: steps one after another.
* `Switchboard.exchange?_snoc`, `Switchboard.exchange?_modify`: where an exchange was before.
* `Pipeline.turns_start`, `Pipeline.turns_shutdown`: the start and the stop of a pipeline are such
  steps one after another.
-/

namespace Correlator

namespace Switchboard

variable {s s' : Switchboard} {n : Nat} {x x' : Exchange}

/-- An exchange was there before, or is the last one. -/
theorem exchange?_snoc {y : Exchange} (hs : s'.exchangeList = s.exchangeList ++ [y])
    (hx : s'.exchange? n = some x) :
    s.exchange? n = some x ∨ n = s.exchangeList.length ∧ x = y := by
  unfold exchange? at hx ⊢
  rw [hs] at hx
  rcases Nat.lt_or_ge n s.exchangeList.length with hlt | hge
  · rw [List.getElem?_append_left hlt] at hx
    exact .inl hx
  · rw [List.getElem?_append_right hge] at hx
    have hlast := (List.getElem?_eq_some_iff.1 hx).1
    rw [List.length_singleton] at hlast
    exact .inr ⟨by omega, List.mem_singleton.1 (List.mem_of_getElem? hx)⟩

/-- An exchange is as it was, or was changed if it is the one. -/
theorem exchange?_modify {m : Nat} {f : Exchange → Exchange}
    (hs : s'.exchangeList = s.exchangeList.modify m f) (hx' : s'.exchange? n = some x') :
    ∃ x, s.exchange? n = some x ∧ x' = if m = n then f x else x := by
  unfold exchange? at hx'
  rw [hs, List.getElem?_modify] at hx'
  obtain ⟨x, hx, rfl⟩ := Option.map_eq_some_iff.1 hx'
  exact ⟨x, hx, rfl⟩

/-! ## Steps -/

/-- What an element does to the exchanges that comes or goes. -/
inductive Turn (s s' : Switchboard) : Prop
  | same : s'.exchanges = s.exchanges → s'.exchangeList = s.exchangeList → Turn s s'
  /-- A request source comes with its exchange. -/
  | comes (key : Key) (pipeline : String) (attributes : List String) (k : Consumer) :
      s.exchanges.register ⟨key, pipeline, false, s.exchangeList.length⟩ = .ok s'.exchanges →
      s'.exchangeList = s.exchangeList ++ [.new attributes k] → Turn s s'
  /-- A request source comes in vain. -/
  | inVain (attributes : List String) (k : Consumer) : s'.exchanges = s.exchanges →
      s'.exchangeList = s.exchangeList ++ [(Exchange.new attributes k).disconnect] → Turn s s'
  /-- A request source goes, and its exchange is disconnected. -/
  | goes (key : Key) (pipeline : String) (l : Listener Nat) :
      s.exchanges.unregister? key pipeline = some (l, s'.exchanges) →
      s'.exchangeList = s.exchangeList.modify l.handler Exchange.disconnect → Turn s s'

/-- Elements that come and go, one after another. -/
abbrev Turns : Switchboard → Switchboard → Prop := Relation.ReflTransGen Turn

theorem turn_plugExchange (s : Switchboard) (c : RequestSourceConfig) (pipeline : String)
    (k : Consumer) : s.Turn (s.plugExchange c pipeline k).1 := by
  unfold plugExchange
  dsimp only
  split
  · exact .same rfl rfl
  · rename_i exchanges hx
    split
    · rw [unregisterExchange_of_register _ hx]
      exact .inVain c.attributes k rfl rfl
    · exact .comes _ pipeline c.attributes k hx rfl

theorem turn_pullExchange (s : Switchboard) (c : RequestSourceConfig) (pipeline : String) :
    s.Turn (s.pullExchange c pipeline) := by
  unfold pullExchange unregisterExchange
  dsimp only
  split
  · rename_i l exchanges hu
    exact .goes _ pipeline l hu rfl
  · exact .same rfl rfl

end Switchboard

theorem Element.turn_plug (e : Element) (pipeline : String) (s : Switchboard) :
    s.Turn (e.plug pipeline s).1 := by
  unfold plug
  split
  · exact .same rfl rfl
  · exact .same rfl rfl
  · exact s.turn_plugExchange ..
  · split
    · rename_i hs'
      obtain ⟨responses, -, rfl⟩ := Switchboard.plugForwarder_eq_ok hs'
      exact .same rfl rfl
    · exact .same rfl rfl

theorem Element.turn_stop (e : Element) (pipeline : String) (s : Switchboard) :
    s.Turn (e.stop pipeline s) := by
  unfold stop unplug
  split
  · split
    · exact .same rfl rfl
    · exact .same rfl rfl
    · exact s.turn_pullExchange ..
    · unfold Switchboard.pullForwarder
      split <;> exact .same rfl rfl
  · exact .same rfl rfl

namespace Pipeline

theorem turns_stopAll (name : String) (s : Switchboard) (es : List Element) :
    s.Turns (stopAll name s es) := by
  induction es generalizing s with
  | nil => exact .refl
  | cons e es ih => exact .head (e.turn_stop name s) (ih _)

theorem turns_startFrom (name : String) (s : Switchboard) (started rest : List Element) :
    s.Turns (startFrom name s started rest).1 := by
  induction rest generalizing s started with
  | nil => exact .refl
  | cons e rest ih =>
    have hplug := e.turn_plug name s
    unfold startFrom
    generalize e.plug name s = r at hplug ⊢
    obtain ⟨s', fault | _⟩ := r
    · exact .head hplug (turns_stopAll name s' started)
    · exact .head hplug (ih s' _)

theorem turns_start (p : Pipeline) (s : Switchboard) : s.Turns (p.start s).2.1 := by
  unfold start
  split
  · exact .refl
  · exact turns_startFrom p.name s [] p.elements

theorem turns_shutdown (p : Pipeline) (s : Switchboard) : s.Turns (p.shutdown s).2 := by
  unfold shutdown
  split
  · exact turns_stopAll p.name s _
  · exact .refl

end Pipeline

end Correlator
