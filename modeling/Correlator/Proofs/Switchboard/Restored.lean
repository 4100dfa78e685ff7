import Correlator.Pipeline
import Correlator.Proofs.Exchange.Calls

/-!
# A switchboard as it was

What is plugged in and pulled out again leaves the three tables as they were, and of all that was
made on the way nothing is open any more.

* `Switchboard.Restored`: one switchboard is another one as it was, apart from forwarders and
  exchanges that were made since and are closed.
* `Switchboard.plugExchange_eq_ok`, `Switchboard.plugForwarder_eq_ok`: what a source that comes
  does to the tables.
* `Element.restored_unplug_of_plug`: an element that is taken out at once is as if it had never
  come; `Element.restored_of_plug_error`: neither is one that could not come.
* `Switchboard.Restored.stopAll`: to stop elements does the same to both of them.
-/

namespace Correlator

/-! ## Lists that grow at their end -/

/-- A list with more at its end, all of it of one kind. -/
def Extends {α : Type} (p : α → Prop) (l l' : List α) : Prop :=
  ∃ more, l' = l ++ more ∧ ∀ a ∈ more, p a

namespace Extends

variable {α : Type} {p : α → Prop} {l l₁ l₂ l₃ : List α} {f : α → α}

theorem refl (l : List α) : Extends p l l := ⟨[], by simp⟩

theorem snoc {a : α} (ha : p a) (l : List α) : Extends p l (l ++ [a]) := ⟨[a], rfl, by simpa⟩

theorem trans (h : Extends p l₁ l₂) (h' : Extends p l₂ l₃) : Extends p l₁ l₃ := by
  obtain ⟨more, rfl, hm⟩ := h
  obtain ⟨more', rfl, hm'⟩ := h'
  refine ⟨more ++ more', List.append_assoc .., fun a ha => ?_⟩
  rcases List.mem_append.1 ha with ha | ha
  · exact hm a ha
  · exact hm' a ha

theorem getElem?_eq_some {n : Nat} {a : α} (h : Extends p l l') (hn : l[n]? = some a) :
    l'[n]? = some a := by
  obtain ⟨more, rfl, -⟩ := h
  rw [List.getElem?_append_left (List.getElem?_eq_some_iff.1 hn).1]
  exact hn

theorem forall_mem_modify (hf : ∀ a, p a → p (f a)) (hl : ∀ a ∈ l, p a) (n : Nat) :
    ∀ a ∈ l.modify n f, p a := by
  induction l generalizing n with
  | nil => simp
  | cons b l ih =>
    obtain ⟨hb, hl⟩ := List.forall_mem_cons.1 hl
    cases n with
    | zero => exact List.forall_mem_cons.2 ⟨hf b hb, hl⟩
    | succ n => exact List.forall_mem_cons.2 ⟨hb, ih hl n⟩

/-- The same element changed in both lists; one beyond the shorter of them is of the kind still. -/
theorem modify (hf : ∀ a, p a → p (f a)) (h : Extends p l l') (n : Nat) :
    Extends p (l.modify n f) (l'.modify n f) := by
  obtain ⟨more, rfl, hm⟩ := h
  induction l generalizing n with
  | nil => exact ⟨more.modify n f, by simp, forall_mem_modify hf hm n⟩
  | cons a l ih =>
    cases n with
    | zero => exact ⟨more, rfl, hm⟩
    | succ n =>
      obtain ⟨more', he, hm'⟩ := ih n
      exact ⟨more', by simp [he], hm'⟩

theorem modify_length (l : List α) (a : α) : (l ++ [a]).modify l.length f = l ++ [f a] := by
  induction l with
  | nil => rfl
  | cons b l ih => simpa using ih

end Extends

/-! ## Closed for good -/

/-- The events that a forwarder gets go nowhere. -/
def Forwarder.IsClosed (f : Forwarder) : Prop := f.isOpen = false

theorem Forwarder.isClosed_close (f : Forwarder) : f.close.IsClosed := rfl

/-- No call that comes to an exchange is let in. -/
def Exchange.IsClosed (x : Exchange) : Prop := x.isOpen = false

namespace Exchange

/-- An exchange is closed once it was disconnected. -/
theorem isClosed_disconnect (x : Exchange) : x.disconnect.IsClosed := by
  have hfold : ∀ (ids : List String) (y : Exchange), (ids.foldl drain y).isOpen = y.isOpen := by
    intro ids
    induction ids with
    | nil => simp
    | cons id ids ih => simp [ih]
  exact hfold ..

end Exchange

namespace Switchboard

variable {s t u : Switchboard} {o : String} {k : Consumer}

/-! ## What sources do to the tables -/

/-- A request source that comes: its id and its path are free, and both lead to its exchange. -/
theorem plugExchange_eq_ok {c : RequestSourceConfig} (h : s.plugExchange c o k = (t, .ok ())) :
    ∃ exchanges routes,
      s.exchanges.register ⟨.plain c.sourceId, o, false, s.exchangeList.length⟩ = .ok exchanges ∧
      s.routes.bind c.path o s.exchangeList.length = .ok routes ∧
      t = { s with
        exchanges, routes, exchangeList := s.exchangeList ++ [Exchange.new c.attributes k] } := by
  unfold plugExchange at h
  dsimp only at h
  split at h
  · cases h
  · rename_i exchanges hx
    split at h
    · cases h
    · rename_i routes hr
      cases h
      exact ⟨exchanges, routes, hx, hr, rfl⟩

/-- A response source that comes: its key is free, and leads to its forwarder. -/
theorem plugForwarder_eq_ok {c : ResponseSourceConfig} (h : s.plugForwarder c o k = .ok t) :
    ∃ responses,
      s.responses.register ⟨responseKey c, o, c.download, s.forwarderList.length⟩ = .ok responses ∧
      t = { s with responses, forwarderList := s.forwarderList ++ [⟨k, true⟩] } := by
  unfold plugForwarder at h
  split at h
  · rename_i responses hr
    cases h
    exact ⟨responses, hr, rfl⟩
  · cases h

/-! ## Restoration -/

/-- The tables of one switchboard are those of another, and so are its forwarders and exchanges,
but for some that were made since and are closed. -/
structure Restored (s t : Switchboard) : Prop where
  responses : t.responses = s.responses
  exchanges : t.exchanges = s.exchanges
  routes : t.routes = s.routes
  forwarders : Extends Forwarder.IsClosed s.forwarderList t.forwarderList
  exchangeList : Extends Exchange.IsClosed s.exchangeList t.exchangeList

namespace Restored

theorem refl (s : Switchboard) : s.Restored s := ⟨rfl, rfl, rfl, .refl _, .refl _⟩

theorem trans (h : s.Restored t) (h' : t.Restored u) : s.Restored u where
  responses := h'.responses.trans h.responses
  exchanges := h'.exchanges.trans h.exchanges
  routes := h'.routes.trans h.routes
  forwarders := h.forwarders.trans h'.forwarders
  exchangeList := h.exchangeList.trans h'.exchangeList

/-- To take an exchange out does the same to both switchboards. -/
theorem unregisterExchange (h : s.Restored t) (key : Key) (o : String) :
    (s.unregisterExchange key o).Restored (t.unregisterExchange key o) := by
  unfold Switchboard.unregisterExchange
  rw [h.exchanges]
  split
  · exact { h with
      exchanges := rfl
      exchangeList := h.exchangeList.modify (fun x _ => x.isClosed_disconnect) _ }
  · exact h

theorem pullExchange (h : s.Restored t) (c : RequestSourceConfig) (o : String) :
    (s.pullExchange c o).Restored (t.pullExchange c o) := by
  unfold Switchboard.pullExchange
  rw [h.routes]
  refine unregisterExchange ?_ _ o
  exact { h with routes := rfl }

theorem pullForwarder (h : s.Restored t) (c : ResponseSourceConfig) (o : String) :
    (s.pullForwarder c o).Restored (t.pullForwarder c o) := by
  unfold Switchboard.pullForwarder
  rw [h.responses]
  split
  · exact { h with
      responses := rfl
      forwarders := h.forwarders.modify (fun f _ => f.isClosed_close) _ }
  · exact h

end Restored

/-- To take out the exchange that was registered last takes out just that one. -/
theorem unregisterExchange_of_register {key : Key} {exchanges : Registry Nat} (x : Exchange)
    (h : s.exchanges.register ⟨key, o, false, s.exchangeList.length⟩ = .ok exchanges) :
    Switchboard.unregisterExchange
        { s with exchanges, exchangeList := s.exchangeList ++ [x] } key o =
      { s with exchangeList := s.exchangeList ++ [x.disconnect] } := by
  have hu := Registry.unregister?_of_register h
  dsimp only at hu
  unfold Switchboard.unregisterExchange
  rw [hu]
  unfold alterExchange
  dsimp only
  rw [Extends.modify_length]

/-- A switchboard with an exchange more, which was disconnected, is as it was. -/
theorem restored_disconnect (s : Switchboard) (x : Exchange) :
    s.Restored { s with exchangeList := s.exchangeList ++ [x.disconnect] } :=
  ⟨rfl, rfl, rfl, .refl _, .snoc x.isClosed_disconnect _⟩

/-- A request source that could not come has left nothing behind. -/
theorem restored_of_plugExchange_error {c : RequestSourceConfig} {fault : Fault}
    (h : s.plugExchange c o k = (t, .error fault)) : s.Restored t := by
  unfold plugExchange at h
  dsimp only at h
  split at h
  · cases h
    exact .refl s
  · rename_i exchanges hx
    split at h
    · cases h
      rw [unregisterExchange_of_register _ hx]
      exact restored_disconnect ..
    · cases h

/-- A request source that goes at once is as if it had never come. -/
theorem restored_pullExchange {c : RequestSourceConfig}
    (h : s.plugExchange c o k = (t, .ok ())) : s.Restored (t.pullExchange c o) := by
  obtain ⟨exchanges, routes, hx, hr, rfl⟩ := plugExchange_eq_ok h
  unfold pullExchange
  rw [Routes.unbind?_of_bind hr]
  refine Eq.subst (unregisterExchange_of_register _ hx).symm ?_
  exact restored_disconnect ..

/-- A response source that goes at once is as if it had never come. -/
theorem restored_pullForwarder {c : ResponseSourceConfig}
    (h : s.plugForwarder c o k = .ok t) : s.Restored (t.pullForwarder c o) := by
  obtain ⟨responses, hr, rfl⟩ := plugForwarder_eq_ok h
  have hu := Registry.unregister?_of_register hr
  dsimp only at hu
  unfold pullForwarder
  rw [hu]
  refine ⟨rfl, rfl, rfl, ?_, .refl _⟩
  show Extends _ _ ((s.forwarderList ++ [_]).modify _ _)
  rw [Extends.modify_length]
  exact .snoc (Forwarder.isClosed_close _) _

end Switchboard

/-! ## Elements -/

namespace Element

variable {e : Element} {o : String} {s t : Switchboard}

/-- An element that could not come has left nothing behind. -/
theorem restored_of_plug_error {fault : Fault} (h : e.plug o s = (t, .error fault)) :
    s.Restored t := by
  unfold plug at h
  split at h
  · cases h
  · cases h
  · exact Switchboard.restored_of_plugExchange_error h
  · split at h
    · cases h
    · cases h
      exact .refl s

/-- An element that is taken out at once is as if it had never come. -/
theorem restored_unplug_of_plug (h : e.plug o s = (t, .ok ())) : s.Restored (e.unplug o t) := by
  unfold plug at h
  unfold unplug
  split at h
  · cases h
    exact .refl s
  · cases h
    exact .refl s
  · exact Switchboard.restored_pullExchange h
  · split at h
    · rename_i ht
      cases h
      exact Switchboard.restored_pullForwarder ht
    · cases h

end Element

namespace Switchboard.Restored

variable {s t : Switchboard}

theorem unplug (h : s.Restored t) (e : Element) (o : String) :
    (e.unplug o s).Restored (e.unplug o t) := by
  unfold Element.unplug
  split
  · exact h
  · exact h
  · exact h.pullExchange _ o
  · exact h.pullForwarder _ o

/-- To stop elements does the same to both switchboards. -/
theorem stopAll (h : s.Restored t) (name : String) (es : List Element) :
    (Pipeline.stopAll name s es).Restored (Pipeline.stopAll name t es) := by
  induction es generalizing s t with
  | nil => exact h
  | cons e es ih =>
    refine ih ?_
    simp only [Element.stop]
    split
    · exact h.unplug e name
    · exact h

end Switchboard.Restored

end Correlator
