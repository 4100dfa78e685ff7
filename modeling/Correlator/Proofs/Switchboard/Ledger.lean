import Correlator.Proofs.Switchboard.Restored

/-!
# The ledger of a switchboard

A ledger says which sources are plugged in, and with which forwarder or exchange. The tables of a
switchboard are what its ledger says.

* `Plug`: a source that is plugged in.
* `Switchboard.Ledger`: the tables hold one entry for each plug, no two of one key, id or path, and
  each entry leads to the open forwarder or exchange of its plug.
* `Switchboard.Ledger.plugExchange`, `Switchboard.Ledger.pullExchange` and their like for response
  sources: one plug more, one plug less.
* `Switchboard.Holds`: there is a ledger of just the sources among some elements;
  `Switchboard.Holds.plug`, `Switchboard.Holds.unplug`: elements come and go.
* `Switchboard.Matches`: what that comes to for whoever looks keys and paths up.
-/

namespace Correlator

/-- A source that is plugged in: the pipeline that it belongs to, its configuration and its
consumer, and the number of its forwarder or exchange. -/
structure Plug (α : Type) where
  owner : String
  source : α
  consumer : Consumer
  number : Nat

namespace Plug

/-- What a plug comes from. -/
def origin {α : Type} (p : Plug α) : String × α × Consumer := (p.owner, p.source, p.consumer)

/-- The listener for responses. -/
def responder (p : Plug ResponseSourceConfig) : Listener Nat :=
  ⟨Switchboard.responseKey p.source, p.owner, p.source.download, p.number⟩

/-- The listener for replies. -/
def listener (p : Plug RequestSourceConfig) : Listener Nat :=
  ⟨.plain p.source.sourceId, p.owner, false, p.number⟩

/-- The route for requests. -/
def route (p : Plug RequestSourceConfig) : Route Nat := ⟨p.source.path, p.owner, p.number⟩

end Plug

namespace Switchboard

variable {s t : Switchboard} {o : String} {k : Consumer}

/-! ## Ledgers -/

/-- The tables are what the plugs say. -/
structure Ledger (s : Switchboard) (requests : List (Plug RequestSourceConfig))
    (responses : List (Plug ResponseSourceConfig)) : Prop where
  responses_perm : s.responses.listeners.Perm (responses.map Plug.responder)
  exchanges_perm : s.exchanges.listeners.Perm (requests.map Plug.listener)
  routes_perm : s.routes.routes.Perm (requests.map Plug.route)
  keys_nodup : (responses.map fun p => responseKey p.source).Nodup
  ids_nodup : (requests.map fun p => p.source.sourceId).Nodup
  paths_nodup : (requests.map fun p => p.source.path).Nodup
  forwarder_numbers_nodup : (responses.map Plug.number).Nodup
  exchange_numbers_nodup : (requests.map Plug.number).Nodup
  forwarder_open : ∀ p ∈ responses, s.forwarder? p.number = some ⟨p.consumer, true⟩
  exchange_open : ∀ p ∈ requests, ∃ x,
    s.exchange? p.number = some x ∧ x.isOpen = true ∧ x.consumer = p.consumer

namespace Ledger

variable {requests requests' : List (Plug RequestSourceConfig)}
  {responses responses' : List (Plug ResponseSourceConfig)}

theorem empty : Ledger .empty [] [] where
  responses_perm := .nil
  exchanges_perm := .nil
  routes_perm := .nil
  keys_nodup := .nil
  ids_nodup := .nil
  paths_nodup := .nil
  forwarder_numbers_nodup := .nil
  exchange_numbers_nodup := .nil
  forwarder_open := by simp
  exchange_open := by simp

/-- The order of a ledger does not matter. -/
theorem perm (h : Ledger s requests responses) (hr : requests.Perm requests')
    (hq : responses.Perm responses') : Ledger s requests' responses' where
  responses_perm := h.responses_perm.trans (hq.map _)
  exchanges_perm := h.exchanges_perm.trans (hr.map _)
  routes_perm := h.routes_perm.trans (hr.map _)
  keys_nodup := (hq.map _).nodup_iff.1 h.keys_nodup
  ids_nodup := (hr.map _).nodup_iff.1 h.ids_nodup
  paths_nodup := (hr.map _).nodup_iff.1 h.paths_nodup
  forwarder_numbers_nodup := (hq.map _).nodup_iff.1 h.forwarder_numbers_nodup
  exchange_numbers_nodup := (hr.map _).nodup_iff.1 h.exchange_numbers_nodup
  forwarder_open p hp := h.forwarder_open p (hq.mem_iff.2 hp)
  exchange_open p hp := h.exchange_open p (hr.mem_iff.2 hp)

theorem response_keys_nodup (h : Ledger s requests responses) : s.responses.keys.Nodup := by
  refine (h.responses_perm.map _).nodup_iff.2 ?_
  rw [List.map_map]
  exact h.keys_nodup

theorem exchange_keys_nodup (h : Ledger s requests responses) : s.exchanges.keys.Nodup := by
  refine (h.exchanges_perm.map _).nodup_iff.2 ?_
  have hkeys := h.ids_nodup.map fun id id' (e : Key.plain id = Key.plain id') => (Key.mk.inj e).1
  rw [List.map_map] at hkeys ⊢
  exact hkeys

theorem route_paths_nodup (h : Ledger s requests responses) : s.routes.paths.Nodup := by
  refine (h.routes_perm.map _).nodup_iff.2 ?_
  rw [List.map_map]
  exact h.paths_nodup

/-- A switchboard that was restored has the ledger that it had. -/
theorem restored (h : Ledger s requests responses) (hst : s.Restored t) :
    Ledger t requests responses where
  __ := h
  responses_perm := hst.responses ▸ h.responses_perm
  exchanges_perm := hst.exchanges ▸ h.exchanges_perm
  routes_perm := hst.routes ▸ h.routes_perm
  forwarder_open p hp := hst.forwarders.getElem?_eq_some (h.forwarder_open p hp)
  exchange_open p hp := by
    obtain ⟨x, hx, hopen⟩ := h.exchange_open p hp
    exact ⟨x, hst.exchangeList.getElem?_eq_some hx, hopen⟩

/-! ## One plug more, one plug less -/

/-- A response source that comes is one plug more. -/
theorem plugForwarder {c : ResponseSourceConfig} (h : Ledger s requests responses)
    (ht : s.plugForwarder c o k = .ok t) :
    Ledger t requests (⟨o, c, k, s.forwarderList.length⟩ :: responses) := by
  obtain ⟨listeners, hr, rfl⟩ := plugForwarder_eq_ok ht
  obtain ⟨hfree, rfl⟩ := Registry.register_eq_ok.1 hr
  have hfresh := Registry.lookup?_eq_none.1 hfree
  have hnew : ∀ p ∈ responses, responseKey p.source ≠ responseKey c := fun p hp =>
    hfresh p.responder (h.responses_perm.mem_iff.2 (List.mem_map_of_mem hp))
  have hlt : ∀ p ∈ responses, p.number < s.forwarderList.length := fun p hp =>
    (List.getElem?_eq_some_iff.1 (h.forwarder_open p hp)).1
  have hold : Extends (fun _ => True) s.forwarderList (s.forwarderList ++ [⟨k, true⟩]) :=
    .snoc trivial _
  exact {
    h with
    responses_perm := (List.perm_append_singleton _ _).trans (h.responses_perm.cons _)
    keys_nodup := List.nodup_cons.2 ⟨by simpa using hnew, h.keys_nodup⟩
    forwarder_numbers_nodup := List.nodup_cons.2
      ⟨by simpa using fun p hp => Nat.ne_of_lt (hlt p hp), h.forwarder_numbers_nodup⟩
    forwarder_open := List.forall_mem_cons.2
      ⟨List.getElem?_concat_length, fun p hp => hold.getElem?_eq_some (h.forwarder_open p hp)⟩ }

/-- A response source that goes is one plug less. -/
theorem pullForwarder {p : Plug ResponseSourceConfig} (h : Ledger s requests (p :: responses)) :
    Ledger (s.pullForwarder p.source p.owner) requests responses := by
  obtain ⟨listeners, hu, hperm⟩ :=
    Registry.unregister?_of_perm h.responses_perm h.response_keys_nodup
  change s.responses.unregister? (responseKey p.source) p.owner = _ at hu
  obtain ⟨hother, hnodup⟩ := List.nodup_cons.1 h.forwarder_numbers_nodup
  unfold Switchboard.pullForwarder
  rw [hu]
  exact {
    h with
    responses_perm := hperm
    keys_nodup := (List.nodup_cons.1 h.keys_nodup).2
    forwarder_numbers_nodup := hnodup
    forwarder_open := fun q hq => by
      have hne : p.number ≠ q.number := fun e => hother (e ▸ List.mem_map_of_mem hq)
      refine (List.getElem?_modify_ne _ _ hne).trans ?_
      exact h.forwarder_open q (List.mem_cons_of_mem p hq) }

/-- A request source that comes is one plug more. -/
theorem plugExchange {c : RequestSourceConfig} (h : Ledger s requests responses)
    (ht : s.plugExchange c o k = (t, .ok ())) :
    Ledger t (⟨o, c, k, s.exchangeList.length⟩ :: requests) responses := by
  obtain ⟨exchanges, routes, hx, hr, rfl⟩ := plugExchange_eq_ok ht
  obtain ⟨hfree, rfl⟩ := Registry.register_eq_ok.1 hx
  obtain ⟨hfree', rfl⟩ := Routes.bind_eq_ok.1 hr
  have hfresh := Registry.lookup?_eq_none.1 hfree
  have hfresh' := Routes.find?_eq_none.1 hfree'
  have hid : ∀ p ∈ requests, p.source.sourceId ≠ c.sourceId := fun p hp e =>
    hfresh p.listener (h.exchanges_perm.mem_iff.2 (List.mem_map_of_mem hp)) (congrArg Key.plain e)
  have hpath : ∀ p ∈ requests, p.source.path ≠ c.path := fun p hp =>
    hfresh' p.route (h.routes_perm.mem_iff.2 (List.mem_map_of_mem hp))
  have hlt : ∀ p ∈ requests, p.number < s.exchangeList.length := fun p hp => by
    obtain ⟨x, he, -⟩ := h.exchange_open p hp
    exact (List.getElem?_eq_some_iff.1 he).1
  have hold : Extends (fun _ => True) s.exchangeList
      (s.exchangeList ++ [Exchange.new c.attributes k]) := .snoc trivial _
  exact {
    h with
    exchanges_perm := (List.perm_append_singleton _ _).trans (h.exchanges_perm.cons _)
    routes_perm := (List.perm_append_singleton _ _).trans (h.routes_perm.cons _)
    ids_nodup := List.nodup_cons.2 ⟨by simpa using hid, h.ids_nodup⟩
    paths_nodup := List.nodup_cons.2 ⟨by simpa using hpath, h.paths_nodup⟩
    exchange_numbers_nodup := List.nodup_cons.2
      ⟨by simpa using fun p hp => Nat.ne_of_lt (hlt p hp), h.exchange_numbers_nodup⟩
    exchange_open := List.forall_mem_cons.2
      ⟨⟨_, List.getElem?_concat_length, rfl, rfl⟩, fun p hp => by
        obtain ⟨x, he, hopen⟩ := h.exchange_open p hp
        exact ⟨x, hold.getElem?_eq_some he, hopen⟩⟩ }

/-- A request source that goes is one plug less. -/
theorem pullExchange {p : Plug RequestSourceConfig} (h : Ledger s (p :: requests) responses) :
    Ledger (s.pullExchange p.source p.owner) requests responses := by
  obtain ⟨exchanges, hu, hperm⟩ :=
    Registry.unregister?_of_perm h.exchanges_perm h.exchange_keys_nodup
  obtain ⟨routes, hb, hperm'⟩ := Routes.unbind?_of_perm h.routes_perm h.route_paths_nodup
  change s.exchanges.unregister? (.plain p.source.sourceId) p.owner = _ at hu
  change s.routes.unbind? p.source.path p.owner = _ at hb
  obtain ⟨hother, hnodup⟩ := List.nodup_cons.1 h.exchange_numbers_nodup
  unfold Switchboard.pullExchange Switchboard.unregisterExchange
  dsimp only
  rw [hb, hu]
  exact {
    h with
    exchanges_perm := hperm
    routes_perm := hperm'
    ids_nodup := (List.nodup_cons.1 h.ids_nodup).2
    paths_nodup := (List.nodup_cons.1 h.paths_nodup).2
    exchange_numbers_nodup := hnodup
    exchange_open := fun q hq => by
      have hne : p.number ≠ q.number := fun e => hother (e ▸ List.mem_map_of_mem hq)
      obtain ⟨x, he, hopen⟩ := h.exchange_open q (List.mem_cons_of_mem p hq)
      exact ⟨x, (List.getElem?_modify_ne _ _ hne).trans he, hopen⟩ }

end Ledger

/-! ## The sources among elements -/

/-- A request source with its pipeline. -/
def requestOrigin? : String × Part → Option (String × RequestSourceConfig × Consumer)
  | (o, .requestSource c k) => some (o, c, k)
  | _ => none

/-- A response source with its pipeline. -/
def responseOrigin? : String × Part → Option (String × ResponseSourceConfig × Consumer)
  | (o, .responseSource c k) => some (o, c, k)
  | _ => none

/-- There is a ledger of just the sources among some parts, each given with its pipeline. -/
def Holds (s : Switchboard) (parts : List (String × Part)) : Prop :=
  ∃ requests responses, Ledger s requests responses ∧
    (requests.map Plug.origin).Perm (parts.filterMap requestOrigin?) ∧
    (responses.map Plug.origin).Perm (parts.filterMap responseOrigin?)

/-- A plug can be brought to the front by what it comes from. -/
theorem exists_plug {α : Type} {plugs : List (Plug α)} {a : String × α × Consumer}
    {rest : List (String × α × Consumer)} (h : (plugs.map Plug.origin).Perm (a :: rest)) :
    ∃ p plugs', plugs.Perm (p :: plugs') ∧ p.origin = a ∧ (plugs'.map Plug.origin).Perm rest := by
  obtain ⟨p, hp, ha⟩ := List.mem_map.1 (h.mem_iff.2 (List.mem_cons_self ..))
  obtain ⟨before, after, rfl⟩ := List.append_of_mem hp
  refine ⟨p, before ++ after, List.perm_middle, ha, List.Perm.cons_inv (a := a) ?_⟩
  rw [← ha] at h ⊢
  exact (List.perm_middle.map Plug.origin).symm.trans h

namespace Holds

variable {parts parts' : List (String × Part)} {e : Element}

theorem empty : Holds .empty [] := ⟨[], [], .empty, .nil, .nil⟩

theorem perm (h : s.Holds parts) (hp : parts.Perm parts') : s.Holds parts' := by
  obtain ⟨requests, responses, hl, hr, hq⟩ := h
  exact ⟨requests, responses, hl, hr.trans (hp.filterMap _), hq.trans (hp.filterMap _)⟩

theorem restored (h : s.Holds parts) (hst : s.Restored t) : t.Holds parts := by
  obtain ⟨requests, responses, hl, hr, hq⟩ := h
  exact ⟨requests, responses, hl.restored hst, hr, hq⟩

/-- An element that comes is held. -/
theorem plug (h : s.Holds parts) (ht : e.plug o s = (t, .ok ())) :
    t.Holds ((o, e.part) :: parts) := by
  obtain ⟨requests, responses, hl, hr, hq⟩ := h
  obtain ⟨part, active⟩ := e
  cases part with
  | requestSink sink =>
    cases ht
    exact ⟨requests, responses, hl, hr, hq⟩
  | responseSink sink =>
    cases ht
    exact ⟨requests, responses, hl, hr, hq⟩
  | requestSource c k => exact ⟨_, _, hl.plugExchange ht, hr.cons (o, c, k), hq⟩
  | responseSource c k =>
    simp only [Element.plug] at ht
    split at ht
    · rename_i u hu
      cases ht
      exact ⟨_, _, hl.plugForwarder hu, hr, hq.cons (o, c, k)⟩
    · cases ht

/-- An element that goes is held no longer. -/
theorem unplug (h : s.Holds ((o, e.part) :: parts)) : (e.unplug o s).Holds parts := by
  obtain ⟨requests, responses, hl, hr, hq⟩ := h
  obtain ⟨part, active⟩ := e
  cases part with
  | requestSink sink => exact ⟨requests, responses, hl, hr, hq⟩
  | responseSink sink => exact ⟨requests, responses, hl, hr, hq⟩
  | requestSource c k =>
    obtain ⟨p, requests', hperm, hp, hr'⟩ := exists_plug hr
    cases hp
    exact ⟨requests', responses, (hl.perm hperm (.refl _)).pullExchange, hr', hq⟩
  | responseSource c k =>
    obtain ⟨p, responses', hperm, hp, hq'⟩ := exists_plug hq
    cases hp
    exact ⟨requests, responses', (hl.perm (.refl _) hperm).pullForwarder, hr, hq'⟩

end Holds

/-! ## What the tables say -/

/-- The tables are the union of what the sources of pipelines hold: one entry for each source, on
behalf of its pipeline. No two of the sources have one key, id or path, and the exchange under a
source's id is the one at its path. -/
structure Matches (s : Switchboard) (requests : List (String × RequestSourceConfig × Consumer))
    (responses : List (String × ResponseSourceConfig × Consumer)) : Prop where
  responses_perm : (s.responses.listeners.map fun l => (l.key, l.owner)).Perm
    (responses.map fun (o, c, _) => (responseKey c, o))
  exchanges_perm : (s.exchanges.listeners.map fun l => (l.key, l.owner)).Perm
    (requests.map fun (o, c, _) => (.plain c.sourceId, o))
  routes_perm : (s.routes.routes.map fun r => (r.path, r.owner)).Perm
    (requests.map fun (o, c, _) => (c.path, o))
  keys_nodup : (responses.map fun (_, c, _) => responseKey c).Nodup
  ids_nodup : (requests.map fun (_, c, _) => c.sourceId).Nodup
  paths_nodup : (requests.map fun (_, c, _) => c.path).Nodup
  forwarder_open : ∀ o c k, (o, c, k) ∈ responses → ∃ n,
    s.responses.lookup? (responseKey c) = some ⟨responseKey c, o, c.download, n⟩ ∧
      s.forwarder? n = some ⟨k, true⟩
  exchange_open : ∀ o c k, (o, c, k) ∈ requests → ∃ n x,
    s.exchanges.lookup? (.plain c.sourceId) = some ⟨.plain c.sourceId, o, false, n⟩ ∧
      s.routes.get? c.path = some n ∧
      s.exchange? n = some x ∧ x.isOpen = true ∧ x.consumer = k

namespace Matches

variable {requests requests' : List (String × RequestSourceConfig × Consumer)}
  {responses responses' : List (String × ResponseSourceConfig × Consumer)}

/-- The order of the sources does not matter. -/
theorem perm (h : s.Matches requests responses) (hr : requests.Perm requests')
    (hq : responses.Perm responses') : s.Matches requests' responses' where
  responses_perm := h.responses_perm.trans (hq.map _)
  exchanges_perm := h.exchanges_perm.trans (hr.map _)
  routes_perm := h.routes_perm.trans (hr.map _)
  keys_nodup := (hq.map _).nodup_iff.1 h.keys_nodup
  ids_nodup := (hr.map _).nodup_iff.1 h.ids_nodup
  paths_nodup := (hr.map _).nodup_iff.1 h.paths_nodup
  forwarder_open o c k hp := h.forwarder_open o c k (hq.mem_iff.2 hp)
  exchange_open o c k hp := h.exchange_open o c k (hr.mem_iff.2 hp)

end Matches

/-- The tables match the sources that a ledger's plugs come from. -/
theorem Ledger.matches_origins {requests : List (Plug RequestSourceConfig)}
    {responses : List (Plug ResponseSourceConfig)} (h : Ledger s requests responses) :
    s.Matches (requests.map Plug.origin) (responses.map Plug.origin) where
  responses_perm := by
    rw [List.map_map]
    exact (h.responses_perm.map _).trans (.of_eq (List.map_map ..))
  exchanges_perm := by
    rw [List.map_map]
    exact (h.exchanges_perm.map _).trans (.of_eq (List.map_map ..))
  routes_perm := by
    rw [List.map_map]
    exact (h.routes_perm.map _).trans (.of_eq (List.map_map ..))
  keys_nodup := by
    rw [List.map_map]
    exact h.keys_nodup
  ids_nodup := by
    rw [List.map_map]
    exact h.ids_nodup
  paths_nodup := by
    rw [List.map_map]
    exact h.paths_nodup
  forwarder_open := by
    intro o c k hmem
    obtain ⟨p, hp, he⟩ := List.mem_map.1 hmem
    cases he
    have hl : p.responder ∈ s.responses.listeners :=
      h.responses_perm.mem_iff.2 (List.mem_map_of_mem hp)
    exact ⟨p.number, Registry.lookup?_of_mem hl h.response_keys_nodup, h.forwarder_open p hp⟩
  exchange_open := by
    intro o c k hmem
    obtain ⟨p, hp, he⟩ := List.mem_map.1 hmem
    cases he
    have hl : p.listener ∈ s.exchanges.listeners :=
      h.exchanges_perm.mem_iff.2 (List.mem_map_of_mem hp)
    have hroute : p.route ∈ s.routes.routes := h.routes_perm.mem_iff.2 (List.mem_map_of_mem hp)
    have hfound : s.routes.find? p.source.path = some p.route :=
      Routes.find?_of_mem hroute h.route_paths_nodup
    obtain ⟨x, hx, hopen, hconsumer⟩ := h.exchange_open p hp
    refine ⟨p.number, x, Registry.lookup?_of_mem hl h.exchange_keys_nodup, ?_, hx, hopen,
      hconsumer⟩
    exact congrArg (Option.map Route.handler) hfound

/-- The tables match the sources among the parts that are held. -/
theorem Holds.matches_parts {parts : List (String × Part)} (h : s.Holds parts) :
    s.Matches (parts.filterMap requestOrigin?) (parts.filterMap responseOrigin?) := by
  obtain ⟨requests, responses, hl, hr, hq⟩ := h
  exact hl.matches_origins.perm hr hq

end Switchboard

end Correlator
