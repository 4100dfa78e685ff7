import Correlator.Proofs.Send.Sound

/-!
# Sends among each other

Any number of sends are under way through any sinks, and they take their steps in any order, while
response sources come and go.

* `Outgoing`: the voyages of all sends with what they share; `Outgoing.Step`: an event is
  published, a voyage takes a step, or something that they share changes.
* `Outgoing.Reaches`: steps one after another; `Outgoing.kept_reaches`: what is known of all
  voyages after any steps.
* `Outgoing.continues_reaches`: voyages go on, and are never lost.
* `Voyage.Accounted`: what a sender is told is accounted for by the requests and the calls that
  were made; `Outgoing.Kept.accounted`: so it is for every voyage.
-/

namespace Correlator

/-- The voyage of an event that was just published. -/
def Voyage.new (sink : RequestSink) (event : Event) (answer : Answer) (limit : Nat)
    (request : Request) : Voyage :=
  ⟨sink, event, ⟨request, sink.delivery event request.url limit, answer, none, .new⟩, .posted, [],
    [], false⟩

/-- The voyages of all sends, with what they share. -/
structure Outgoing where
  switchboard : Switchboard
  files : FileTree
  /-- The greatest number of bytes that are read of a payload. -/
  limit : Nat
  voyages : List Voyage

namespace Outgoing

/-- Nothing was published yet, and no response source has come. -/
def fresh (limit : Nat) (files : FileTree) : Outgoing := ⟨.empty, files, limit, []⟩

/-- One step. -/
inductive Step (o : Outgoing) : Outgoing → Prop
  /-- An event is published through a sink. -/
  | publish (sink : RequestSink) (event : Event) (answer : Answer) (request : Request) :
      sink.request event = .ok request →
      Step o { o with voyages := o.voyages ++ [.new sink event answer o.limit request] }
  | voyage (n : Nat) {v v' : Voyage} {files : FileTree} : o.voyages[n]? = some v →
      v.Step o.switchboard o.files files v' →
      Step o { o with files, voyages := o.voyages.set n v' }
  | shift {switchboard : Switchboard} : o.switchboard.Shift switchboard →
      Step o { o with switchboard }
  /-- Somebody else changes the files. -/
  | write (files : FileTree) : Step o { o with files }

/-- Steps one after another. -/
abbrev Reaches : Outgoing → Outgoing → Prop := Relation.ReflTransGen Step

variable {o o' : Outgoing} {n : Nat} {v v' : Voyage} {limit : Nat} {files : FileTree}

/-! ## What is known of all voyages -/

/-- What a voyage brought with it when its event was published. -/
structure Launched (limit : Nat) (v : Voyage) : Prop where
  request : v.sink.request v.event = .ok v.send.request
  delivery : v.send.delivery = v.sink.delivery v.event v.send.request.url limit

/-- What is known after any steps. -/
structure Kept (o : Outgoing) : Prop where
  wired : o.switchboard.Wired
  launched : ∀ v ∈ o.voyages, Launched o.limit v
  sound : ∀ v ∈ o.voyages, v.Sound

theorem kept_fresh (limit : Nat) (files : FileTree) : (fresh limit files).Kept where
  wired := Switchboard.wired_empty
  launched := by simp [fresh]
  sound := by simp [fresh]

theorem Launched.continues (h : Launched limit v) (hv : v.Continues v') : Launched limit v' where
  request := by
    rw [hv.sink, hv.event, hv.send]
    exact h.request
  delivery := by
    rw [hv.sink, hv.event, hv.send]
    exact h.delivery

/-- **What is known stays known**, whatever step is taken. -/
theorem kept_step (h : o.Kept) (hstep : o.Step o') : o'.Kept := by
  cases hstep with
  | publish sink event answer request hrequest =>
    constructor
    · exact h.wired
    · intro v hv
      rcases List.mem_append.1 hv with hv | hv
      · exact h.launched v hv
      · cases List.mem_singleton.1 hv
        exact ⟨hrequest, rfl⟩
    · intro v hv
      rcases List.mem_append.1 hv with hv | hv
      · exact h.sound v hv
      · cases List.mem_singleton.1 hv
        exact .posted rfl rfl rfl rfl
  | voyage n hn hvoyage =>
    have hmem := List.mem_of_getElem? hn
    have hsound := h.sound _ hmem
    constructor
    · exact h.wired
    · intro w hw
      rcases List.mem_or_eq_of_mem_set hw with hw | rfl
      · exact h.launched w hw
      · exact (h.launched _ hmem).continues (Voyage.continues_step hsound hvoyage)
    · intro w hw
      rcases List.mem_or_eq_of_mem_set hw with hw | rfl
      · exact h.sound w hw
      · exact Voyage.sound_step h.wired hsound hvoyage
  | shift hshift => exact ⟨hshift.wired h.wired, h.launched, h.sound⟩
  | write files => exact ⟨h.wired, h.launched, h.sound⟩

theorem kept_reaches (h : o.Kept) (hr : o.Reaches o') : o'.Kept := by
  induction hr with
  | refl => exact h
  | tail _ hstep ih => exact kept_step ih hstep

/-! ## Voyages go on -/

theorem continues_step (h : o.Kept) (hstep : o.Step o') (hn : o.voyages[n]? = some v) :
    ∃ v', o'.voyages[n]? = some v' ∧ v.Continues v' := by
  cases hstep with
  | publish sink event answer request hrequest =>
    refine ⟨v, ?_, .refl v⟩
    rw [List.getElem?_append_left (List.getElem?_eq_some_iff.1 hn).1]
    exact hn
  | voyage m hm hvoyage =>
    by_cases he : m = n
    · subst he
      cases hn.symm.trans hm
      refine ⟨_, ?_, Voyage.continues_step (h.sound _ (List.mem_of_getElem? hm)) hvoyage⟩
      exact List.getElem?_set_self (List.getElem?_eq_some_iff.1 hm).1
    · exact ⟨v, (List.getElem?_set_ne he).trans hn, .refl v⟩
  | shift hshift => exact ⟨v, hn, .refl v⟩
  | write files => exact ⟨v, hn, .refl v⟩

/-- A voyage is never lost, and whatever was done on it stays done. -/
theorem continues_reaches (h : o.Kept) (hr : o.Reaches o') (hn : o.voyages[n]? = some v) :
    ∃ v', o'.voyages[n]? = some v' ∧ v.Continues v' := by
  induction hr with
  | refl => exact ⟨v, hn, .refl v⟩
  | tail hr hstep ih =>
    obtain ⟨v₁, hn₁, hv₁⟩ := ih
    obtain ⟨v₂, hn₂, hv₂⟩ := continues_step (kept_reaches h hr) hstep hn₁
    exact ⟨v₂, hn₂, hv₁.trans hv₂⟩

end Outgoing

/-! ## What a sender is told -/

/-- What the sender is told is accounted for by the requests and the calls that were made. -/
structure Voyage.Accounted (v : Voyage) : Prop where
  /-- The transport is given the request that stands for the event, and is given it once. -/
  request : v.sink.request v.event = .ok v.send.request
  requests : v.stage = .posted ∧ v.requests = [] ∨ v.requests = [v.send.request]
  calls : v.calls.length ≤ 1
  /-- A sender that looks sees that the send is under way, or its final state. -/
  seen : v.send.handle.poll.seen = .sent ∨
    v.send.handle.outcome? = some v.send.handle.poll.seen
  final : ∀ state, v.send.handle.outcome? = some state →
    state.isTerminal = true ∧ v.requests = [v.send.request]
  /-- An event that was consumed was given to one consumer, whose call has returned. -/
  consumed : ∀ status, v.send.handle.outcome? = some (.delivered status .consumed) →
    ∃ c, v.calls = [c] ∧ c.returned = true
  /-- An event that was not consumed was given to nobody. -/
  delivered : ∀ status outcome, outcome ≠ .consumed →
    v.send.handle.outcome? = some (.delivered status outcome) → v.calls = []
  /-- Nobody was called for a send that has failed, unless something broke down. -/
  failed : ∀ fault, fault ≠ .aborted → v.send.handle.outcome? = some (.failed fault) → v.calls = []
  /-- A breakdown is reported only if the transport, the delivery or a consumer broke down, or the
  transport says so itself. -/
  aborted : v.send.answer.outcome ≠ .fails .aborted →
    v.send.handle.outcome? = some (.failed .aborted) → v.Perished

/-- A sound voyage is accounted for. -/
theorem Voyage.Sound.accounted {v : Voyage} (h : v.Sound)
    (hrequest : v.sink.request v.event = .ok v.send.request) : v.Accounted where
  request := hrequest
  requests := by
    cases h with
    | posted hs hr => exact .inl ⟨hs, hr⟩
    | underway _ _ hr => exact .inr hr
    | ended e _ hr => exact .inr hr
    | closed state _ hr => exact .inr hr
  calls := by
    cases h with
    | posted _ _ _ hc => simp [hc]
    | underway _ _ _ _ hc => simp [hc]
    | ended e _ _ _ hb => exact length_calls_le hb
    | closed state _ _ hb => exact length_calls_le hb
  seen := by
    obtain hnew | ⟨state, -, hb, ht⟩ := h.new_or_closed
    · rw [hnew]
      exact .inl rfl
    · have hs := ne_sent_of_bears hb
      rw [ht.outcome? hs]
      exact (ht.poll hs).seen.imp_right fun he => congrArg some he.symm
  final state ho := by
    obtain ⟨hr, hb⟩ := h.of_outcome ho
    exact ⟨SendState.isTerminal_of_ne (ne_sent_of_bears hb), hr⟩
  consumed status ho := (h.of_outcome ho).2
  delivered status outcome hne ho := by
    have hb := (h.of_outcome ho).2
    cases outcome with
    | consumed => exact absurd rfl hne
    | emptyPayload => exact hb
    | noListener => exact hb
  failed fault hne ho := by
    have hb := (h.of_outcome ho).2
    cases fault with
    | aborted => exact absurd rfl hne
    | _ => exact hb
  aborted hown ho := (h.of_outcome ho).2.2.resolve_left hown

/-- After any steps every voyage is accounted for. -/
theorem Outgoing.Kept.accounted {o : Outgoing} {v : Voyage} (h : o.Kept) (hv : v ∈ o.voyages) :
    v.Accounted := (h.sound v hv).accounted (h.launched v hv).request

end Correlator
