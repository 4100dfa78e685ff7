import Correlator.Proofs.Exchange.Onward

/-!
# The end of an exchange

An exchange is closed before it is drained, and a call parks before it checks that the exchange is
open. So whoever parks too late to be listed comes too late to be let in.

* `Standing.Lingers`: an id that is parked though its call is not about to check. Such an id is to
  be drained; at a closed exchange none comes to linger (`Standing.Step.lingers`).
* `Standing.Refused`: a call that was turned down at its check, for good (`Standing.Step.refused`).
* `Standing.Absent`: an id that was taken out, for good (`Standing.Step.absent`).
* `Traffic.Ends`: whatever lingers at a closed exchange is listed, or is about to be.
* **`Traffic.Tidy.phase_of_mem_parked`**, **`Traffic.Tidy.refused_of_checkOpen`**: at an exchange
  that was drained only calls that are about to check are parked, and these are turned down.

Nothing is asked of replies, of consumers or of clients here: replies may be given for any id,
consumers may fail and clients hang up.
-/

namespace Correlator

namespace Standing

variable {id : String} {isOpen : Bool} {k : Consumer} {s s' : Standing} {m : Traffic.Move}

/-- The id is parked though its call is not about to check that the exchange is open. -/
def Lingers (s : Standing) : Prop := s.isParked = true ∧ s.phase? ≠ some .parked

/-- The call of the id was turned down, and its request went nowhere. -/
structure Refused (s : Standing) : Prop where
  phase : s.phase? = some (.answered .sourceStopped)
  withdrawn : s.isParked = false
  unsubmitted : s.job = .unsubmitted
  no_events : s.events = []

/-- The id has had its call, and is parked no longer. -/
def Absent (s : Standing) : Prop := s.call? ≠ none ∧ s.isParked = false

/-- The call of the id has not been let in, if there is one. -/
def Early (s : Standing) : Prop := s.phase? = none ∨ s.phase? = some .parked

/-- Before a call is let in there is no job and no event. -/
def Quiet (s : Standing) : Prop := s.Early → s.job = .unsubmitted ∧ s.events = []

/-- At an exchange that is closed no id comes to linger. -/
theorem Step.lingers (hs : Step id false k s m s') (h : s'.Lingers) : s.Lingers := by
  obtain ⟨hparked, hphase⟩ := h
  cases hs with
  | park => exact absurd rfl hphase
  | letIn hopen => cases hopen
  | handOver => exact ⟨hparked, hphase⟩
  | endJob => exact ⟨hparked, hphase⟩
  | turnAway => exact ⟨hparked, hphase⟩
  | await deadline _ hwas | expire _ hwas | letGo hwas =>
    refine ⟨hparked, ?_⟩
    rw [hwas]
    simp
  | hangUp hwas =>
    refine ⟨hparked, ?_⟩
    rcases hwas with hwas | ⟨deadline, hwas⟩
    · rw [hwas]
      simp
    · rw [hwas]
      simp
  | refuse | reject | giveUp | reply | drain => cases hparked

/-- A call that was turned down stays so. -/
theorem Step.refused (hs : Step id isOpen k s m s') (h : s.Refused) : s'.Refused := by
  obtain ⟨hphase, hparked, hjob, hevents⟩ := h
  cases hs with
  | park hnone => simp [phase?, hnone] at hphase
  | letIn _ hwas | refuse _ hwas => simp [hphase] at hwas
  | handOver _ _ hwas => simp [hjob] at hwas
  | endJob hwas => simp [hjob] at hwas
  | turnAway hwas => simp [hjob] at hwas
  | reject _ hwas => simp [hjob] at hwas
  | await _ hwas => simp [hjob] at hwas
  | expire _ hwas | letGo hwas | giveUp hwas => simp [hphase] at hwas
  | hangUp hwas => simp [hphase] at hwas
  | reply _ hwas => simp [hparked] at hwas
  | drain hwas => simp [hparked] at hwas

/-- An id that was taken out never comes back. -/
theorem Step.absent (hs : Step id isOpen k s m s') (h : s.Absent) : s'.Absent := by
  obtain ⟨hcall, hparked⟩ := h
  cases hs with
  | park hnone => exact absurd hnone hcall
  | handOver => exact ⟨hcall, hparked⟩
  | endJob => exact ⟨hcall, hparked⟩
  | turnAway => exact ⟨hcall, hparked⟩
  | letIn => exact ⟨by simpa [alter] using hcall, hparked⟩
  | await => exact ⟨by simpa [alter] using hcall, hparked⟩
  | expire | letGo => exact ⟨by simpa [alter] using hcall, hparked⟩
  | hangUp => exact ⟨by simpa [alter] using hcall, hparked⟩
  | refuse => exact ⟨by simpa [conclude, withdraw, alter] using hcall, rfl⟩
  | reject => exact ⟨by simpa [conclude, withdraw, alter] using hcall, rfl⟩
  | giveUp => exact ⟨by simpa [conclude, withdraw, alter] using hcall, rfl⟩
  | reply => exact ⟨by simpa [take, withdraw, alter] using hcall, rfl⟩
  | drain => exact ⟨by simpa [take, withdraw, alter] using hcall, rfl⟩

theorem not_early_alter {f : Call → Call} {p : CallPhase} (h : s.phase? = some p)
    (hf : ∀ c, c.phase = p → (f c).phase ≠ .parked) : ¬ (s.alter f).Early := by
  obtain ⟨c, hc, hp⟩ := Option.map_eq_some_iff.1 h
  simp [Early, hc, hf c hp]

theorem early_of_take {r : Reply} (h : (s.take r).Early) : s.Early := by
  unfold Early take at *
  rw [phase?_alter] at h
  rcases h with hnone | hparked
  · exact .inl (by simpa [withdraw, phase?] using hnone)
  · obtain ⟨c, hc, hp⟩ := Option.map_eq_some_iff.1 hparked
    exact .inr (Option.map_eq_some_iff.2 ⟨c, hc, Call.phase_of_take hp⟩)

/-- No step gives a job to a call that was not let in. -/
theorem Step.quiet (hs : Step id isOpen k s m s') (h : s.Quiet) : s'.Quiet := by
  intro hearly
  cases hs with
  | park hnone =>
    have hwas : s.phase? = none := by simp [phase?, hnone]
    exact h (.inl hwas)
  | letIn _ hwas =>
    exact absurd hearly (not_early_alter hwas fun c _ => by simp)
  | refuse _ hwas => exact absurd hearly (by simp [Early, phase?_conclude hwas])
  | reject _ _ hwas => exact absurd hearly (by simp [Early, phase?_conclude hwas])
  | giveUp hwas => exact absurd hearly (by simp [Early, phase?_conclude hwas])
  | expire _ hwas | letGo hwas =>
    exact absurd hearly (not_early_alter hwas fun c _ => by simp)
  | handOver _ _ hwas =>
    have hjob := (h hearly).1
    simp [hwas] at hjob
  | endJob hwas =>
    have hjob := (h hearly).1
    simp [hwas] at hjob
  | turnAway hwas =>
    have hjob := (h hearly).1
    simp [hwas] at hjob
  | await _ _ hwas =>
    refine absurd hearly (not_early_alter hwas fun c _ => ?_)
    unfold Call.await
    split <;> simp
  | hangUp hwas =>
    rcases hwas with hwas | ⟨deadline, hwas⟩
    · exact absurd hearly (not_early_alter hwas fun c _ => by simp)
    · exact absurd hearly (not_early_alter hwas fun c _ => by simp)
  | reply => exact h (early_of_take hearly)
  | drain => exact h (early_of_take hearly)

/-- A call that is turned down at its check has never had a job. -/
theorem Quiet.refused_conclude (h : s.Quiet) (hphase : s.phase? = some .parked) :
    (s.conclude .sourceStopped).Refused := by
  obtain ⟨hjob, hevents⟩ := h (.inr hphase)
  exact ⟨phase?_conclude hphase, rfl, hjob, hevents⟩

end Standing

/-! ## The end as a whole -/

namespace Traffic

variable {t u : Traffic} {m : Move} {id : String}

/-- Once an exchange is closed, whatever lingers is listed or is about to be. -/
def Ends (t : Traffic) : Prop :=
  match t.record.closing with
  | .notBegun => True
  | .closed => t.exchange.isOpen = false
  | .listing there => t.exchange.isOpen = false ∧ ∀ id, (t.standing id).Lingers → id ∈ there
  | .draining rest => t.exchange.isOpen = false ∧ ∀ id, (t.standing id).Lingers → id ∈ rest

theorem Ends.isOpen (h : t.Ends) (hclosing : t.record.closing ≠ .notBegun) :
    t.exchange.isOpen = false := by
  unfold Ends at h
  split at h
  · rename_i he
    exact absurd he hclosing
  · exact h
  · exact h.1
  · exact h.1

/-- What lingers after a step at a closed exchange has lingered before. -/
theorem lingers_of_step (hopen : t.exchange.isOpen = false) (h : t.step? m = some u)
    (hid : (u.standing id).Lingers) : (t.standing id).Lingers := by
  rcases standing_step h id with he | hs
  · exact he ▸ hid
  · rw [hopen] at hs
    exact hs.lingers hid

/-- Every step keeps the end of the exchange going as it should. -/
theorem ends_step (ht : t.Ends) (h : t.step? m = some u) : u.Ends := by
  cases hm : m.isOfEnd with
  | false =>
    obtain ⟨hfront, hclosing⟩ := front_step hm h
    have hopen : u.exchange.isOpen = t.exchange.isOpen := congrArg (fun front => front.2.2) hfront
    unfold Ends at ht ⊢
    rw [hclosing, hopen]
    split at ht
    · trivial
    · exact ht
    · exact ⟨ht.1, fun id hid => ht.2 id (lingers_of_step ht.1 h hid)⟩
    · exact ⟨ht.1, fun id hid => ht.2 id (lingers_of_step ht.1 h hid)⟩
  | true =>
    have hstep := h
    cases endStep_of_step? hm h with
    | close => rfl
    | beginListing hclosing =>
      refine ⟨ht.isOpen (by simp [hclosing]), fun id hid => ?_⟩
      exact (Exchange.isParked_iff _ _).1 hid.1
    | endListing ids hclosing hids =>
      unfold Ends at ht
      rw [hclosing] at ht
      refine ⟨ht.1, fun id hid => ?_⟩
      exact hids id (ht.2 id hid) ((Exchange.isParked_iff _ _).1 hid.1)
    | drain id' hclosing =>
      unfold Ends at ht
      rw [hclosing] at ht
      obtain ⟨hopen, hlisted⟩ := ht
      have hopen' : (t.exchange.drain id').isOpen = false := by simpa using hopen
      refine ⟨hopen', fun id hid => ?_⟩
      rcases List.mem_cons.1 (hlisted id (lingers_of_step hopen hstep hid)) with rfl | hmem
      · have hparked : (t.exchange.drain id).isParked id = true := hid.1
        simp [Exchange.drain, Exchange.isParked_reply] at hparked
      · exact hmem

/-- Once an exchange was closed it stays closed, and once it was drained it stays drained. -/
theorem closing_step (h : t.step? m = some u) :
    (t.record.closing ≠ .notBegun → u.record.closing ≠ .notBegun) ∧
      (t.record.closing = .draining [] → u.record.closing = .draining []) := by
  cases hm : m.isOfEnd with
  | false =>
    rw [(front_step hm h).2]
    exact ⟨id, id⟩
  | true =>
    cases endStep_of_step? hm h with
    | close hclosing | beginListing hclosing | endListing _ hclosing | drain _ hclosing =>
      exact ⟨fun _ => by simp [setClosing], fun hdone => by simp [hdone] at hclosing⟩

/-- What holds of all traffic. -/
def Tidy (t : Traffic) : Prop := t.Ends ∧ ∀ id, (t.standing id).Quiet

theorem tidy_fresh (attributes : List String) (k : Consumer) : (fresh attributes k).Tidy :=
  ⟨trivial, fun _ _ => ⟨rfl, rfl⟩⟩

theorem tidy_step (ht : t.Tidy) (h : t.step? m = some u) : u.Tidy := by
  refine ⟨ends_step ht.1 h, fun id => ?_⟩
  rcases standing_step h id with he | hs
  · exact he ▸ ht.2 id
  · exact hs.quiet (ht.2 id)

/-- What is parked at an exchange that was drained is about to check that the exchange is open. -/
theorem Tidy.phase_of_mem_parked (ht : t.Tidy) (hdone : t.record.closing = .draining [])
    (hid : id ∈ t.exchange.parked) : (t.standing id).phase? = some .parked := by
  have hends := ht.1
  unfold Ends at hends
  rw [hdone] at hends
  by_contra hphase
  have hlingers : (t.standing id).Lingers := ⟨(Exchange.isParked_iff _ _).2 hid, hphase⟩
  cases hends.2 id hlingers

theorem Tidy.parked_eq_nil (ht : t.Tidy) (hdone : t.record.closing = .draining [])
    (hchecked : ∀ c ∈ t.exchange.calls, c.phase ≠ .parked) : t.exchange.parked = [] := by
  rw [List.eq_nil_iff_forall_not_mem]
  intro id hid
  obtain ⟨c, hc, hphase⟩ := Option.map_eq_some_iff.1 (ht.phase_of_mem_parked hdone hid)
  exact hchecked c (List.mem_of_find?_eq_some hc) hphase

/-- A call that checks once the exchange is closed is turned down. -/
theorem Tidy.refused_of_checkOpen (ht : t.Tidy) (hclosing : t.record.closing ≠ .notBegun)
    (h : t.step? (.checkOpen id) = some u) : (u.standing id).Refused := by
  obtain ⟨hphase, hs⟩ := standing_checkOpen (ht.1.isOpen hclosing) h
  rw [hs, if_pos rfl]
  exact (ht.2 id).refused_conclude hphase

theorem refused_step (ht : (t.standing id).Refused) (h : t.step? m = some u) :
    (u.standing id).Refused := by
  rcases standing_step h id with he | hs
  · exact he ▸ ht
  · exact hs.refused ht

theorem absent_step (ht : (t.standing id).Absent) (h : t.step? m = some u) :
    (u.standing id).Absent := by
  rcases standing_step h id with he | hs
  · exact he ▸ ht
  · exact hs.absent ht

/-- An exchange was drained. What had a call when it was, and was not parked, is not parked. -/
structure DrainedSince (t u : Traffic) : Prop where
  tidy : u.Tidy
  drained : u.record.closing = .draining []
  absent : ∀ id, (t.standing id).Absent → (u.standing id).Absent

theorem Tidy.drainedSince (ht : t.Tidy) (hdone : t.record.closing = .draining []) :
    t.DrainedSince t := ⟨ht, hdone, fun _ h => h⟩

theorem drainedSince_step {v : Traffic} (hu : t.DrainedSince u) (h : u.step? m = some v) :
    t.DrainedSince v where
  tidy := tidy_step hu.tidy h
  drained := (closing_step h).2 hu.drained
  absent id hid := absent_step (hu.absent id hid) h

/-- If all calls had made their checks, then an id that is parked is that of a new call. -/
theorem DrainedSince.call?_eq_none (hu : t.DrainedSince u) (ht : t.exchange.parked = [])
    (hid : id ∈ u.exchange.parked) : t.exchange.call? id = none := by
  by_contra hcall
  have hparked : t.exchange.isParked id = false := by
    unfold Exchange.isParked
    rw [ht]
    rfl
  have habsent := hu.absent id ⟨hcall, hparked⟩
  exact Bool.noConfusion (habsent.2.symm.trans ((Exchange.isParked_iff _ _).2 hid))

end Traffic

end Correlator
