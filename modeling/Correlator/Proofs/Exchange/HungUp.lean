import Correlator.Proofs.Exchange.Release

/-!
# Clients that hang up

Whoever answers a call takes its id out of the table as well. A client that hangs up takes nothing
out: its call is over, and its id stays where it is.

* `CallPhase.isUnderWay`, `Traffic.IsUnderWay`: calls that are still in progress.
* `Traffic.Move.takesOut`: the steps that take an id out whatever has become of its call.
* `Traffic.isGone_iff`: a call is gone just when its client has hung up.
* **`Traffic.parked_of_run`**: an id that is parked belongs to a call that is under way, or its
  client has hung up; then it stays until a reply is given for it or the exchange is drained.
* `Traffic.parked_of_hungUp`: no end of a job and no end of a time takes such an id out.
-/

namespace Correlator

/-- Whether a call is still in progress. -/
def CallPhase.isUnderWay : CallPhase → Bool
  | .parked | .dispatching | .waiting _ | .leaving _ => true
  | .answered _ | .gone => false

/-- No reply lets a client hang up. -/
theorem Call.gone_of_take {c : Call} {r : Reply} (h : (c.take r).phase = .gone) :
    c.phase = .gone := by
  unfold take at h
  split at h
  · exact h
  · exact h
  · cases h
  · exact h
  · exact h
  · exact h

namespace Standing

variable {id : String} {isOpen : Bool} {k : Consumer} {s s' : Standing} {m : Traffic.Move}

/-- The client of the call has hung up. -/
def IsGone (s : Standing) : Prop := s.phase? = some .gone

/-- The call of an id that is parked is under way, unless its client has hung up. -/
theorem Parked.isUnderWay (h : s.Parked) :
    (∃ c, s.call? = some c ∧ c.phase.isUnderWay = true) ∨ s.IsGone := by
  cases h with
  | checking id hc => exact .inl ⟨_, hc, rfl⟩
  | dispatching id hc => exact .inl ⟨_, hc, rfl⟩
  | waiting id deadline hc => exact .inl ⟨_, hc, rfl⟩
  | leaving id holds hc => exact .inl ⟨_, hc, rfl⟩
  | gone id hc => exact .inr (by simp [IsGone, phase?, hc])

theorem IsGone.of_take {r : Reply} (h : (s.take r).IsGone) : s.IsGone := by
  unfold IsGone take at h
  rw [phase?_alter] at h
  obtain ⟨c, hc, hgone⟩ := Option.map_eq_some_iff.1 h
  exact Option.map_eq_some_iff.2 ⟨c, hc, Call.gone_of_take hgone⟩

theorem IsGone.take (h : s.IsGone) (r : Reply) : (s.take r).IsGone := by
  obtain ⟨c, hc, hgone⟩ := Option.map_eq_some_iff.1 h
  simp [IsGone, Standing.take, withdraw, hc, Call.take, hgone]

/-- A client that has hung up does not come back, and only a reply or a drain takes its id out. -/
theorem Step.isGone (hs : Step id isOpen k s m s') (h : s.IsGone) :
    s'.IsGone ∧ (s'.isParked = s.isParked ∨ (∃ r, m = .reply id r) ∨ m = .drain id) := by
  have hwas : s.phase? = some .gone := h
  cases hs with
  | park hnone => simp [phase?, hnone] at hwas
  | letIn _ hphase | refuse _ hphase | reject _ _ hphase | await _ _ hphase | expire _ hphase =>
    simp [hwas] at hphase
  | letGo hphase | giveUp hphase | hangUp hphase => simp [hwas] at hphase
  | handOver | endJob | turnAway => exact ⟨h, .inl rfl⟩
  | reply r => exact ⟨h.take r, .inr (.inl ⟨r, rfl⟩)⟩
  | drain => exact ⟨h.take _, .inr (.inr rfl)⟩

/-- No client is gone that has not hung up. -/
theorem Step.of_isGone (hs : Step id isOpen k s m s') (h : s'.IsGone) :
    s.IsGone ∨ m = .hangUp id := by
  cases hs with
  | park => cases h
  | handOver | endJob | turnAway => exact .inl h
  | hangUp => exact .inr rfl
  | letIn _ hphase | expire _ hphase | letGo hphase =>
    obtain ⟨c, hc, -⟩ := Option.map_eq_some_iff.1 hphase
    simp [IsGone, alter, phase?, hc] at h
  | refuse _ hphase | reject _ _ hphase | giveUp hphase =>
    simp [IsGone, phase?_conclude hphase] at h
  | await deadline _ hphase =>
    obtain ⟨c, hc, -⟩ := Option.map_eq_some_iff.1 hphase
    cases he : c.early? <;> simp [IsGone, alter, phase?, hc, Call.await, he] at h
  | reply | drain => exact .inl h.of_take

end Standing

namespace Traffic

variable {t u : Traffic} {m : Move} {moves later : List Move} {id : String} {k : Consumer}
  {attributes : List String}

/-- The call of an id is still in progress. -/
def IsUnderWay (t : Traffic) (id : String) : Prop :=
  ∃ c, t.exchange.call? id = some c ∧ c.phase.isUnderWay = true

/-- Whether a step takes an id out of the table whatever has become of its call. -/
def Move.takesOut (id : String) : Move → Bool
  | .reply id' _ | .drain id' => id' = id
  | _ => false

theorem not_isUnderWay_of_isGone (h : (t.standing id).IsGone) : ¬ t.IsUnderWay id := by
  rintro ⟨c, hc, hphase⟩
  have hgone : (t.exchange.call? id).map Call.phase = some .gone := h
  rw [hc] at hgone
  cases hgone' : c.phase <;> simp_all [CallPhase.isUnderWay]

/-! ## Clients that have hung up -/

/-- To hang up is to leave the table as it is. -/
theorem step_hangUp (h : t.step? (.hangUp id) = some u) :
    (u.standing id).IsGone ∧ u.exchange.parked = t.exchange.parked := by
  simp only [step?] at h
  have hcall : ∀ c, t.exchange.call? id = some c →
      (standing ⟨t.exchange.hangUp id, t.record⟩ id).IsGone := by
    intro c hc
    have hstanding : standing ⟨t.exchange.hangUp id, t.record⟩ id =
        (t.standing id).alter fun c => { c with phase := .gone } := by
      unfold Exchange.hangUp
      rw [standing_alter, if_pos rfl]
      exact fun _ => rfl
    rw [hstanding]
    simp [Standing.IsGone, Standing.alter, Standing.phase?, standing, hc]
  split at h
  · rename_i hc
    cases h
    exact ⟨hcall _ hc, rfl⟩
  · rename_i hc
    cases h
    exact ⟨hcall _ hc, rfl⟩
  · cases h

/-- **A call is gone just when its client has hung up.** -/
theorem isGone_iff (h : (fresh attributes k).run? moves = some t) :
    (t.standing id).IsGone ↔ .hangUp id ∈ moves := by
  refine foldlM_history (P := fun moves t => (t.standing id).IsGone ↔ .hangUp id ∈ moves)
    ⟨nofun, nofun⟩ ?_ h
  intro before t m u ih hstep
  simp only [List.mem_append, List.mem_singleton, ← ih]
  constructor
  · intro hgone
    rcases standing_step hstep id with he | hs
    · exact .inl (he ▸ hgone)
    · exact (hs.of_isGone hgone).imp_right Eq.symm
  · rintro (hgone | rfl)
    · rcases standing_step hstep id with he | hs
      · exact he ▸ hgone
      · exact (hs.isGone hgone).1
    · exact (step_hangUp hstep).1

/-! ## Ids that stay -/

/-- A reply and a drain take the id out that they are meant for. -/
theorem isParked_of_takesOut (h : t.step? m = some u) (hm : m.takesOut id = true) :
    (u.standing id).isParked = false := by
  cases m with
  | reply id' r =>
    simp only [step?, Option.some.injEq] at h
    subst h
    have hid : id' = id := of_decide_eq_true hm
    show (t.exchange.reply id' r).1.isParked id = false
    rw [Exchange.isParked_reply, if_pos hid.symm]
  | drain id' =>
    have hid : id' = id := of_decide_eq_true hm
    cases endStep_of_step? rfl h
    show (t.exchange.drain id').isParked id = false
    unfold Exchange.drain
    rw [Exchange.isParked_reply, if_pos hid.symm]
  | _ => cases hm

/-- Once its client has hung up an id stays as it is until it is taken out. -/
theorem isGone_step (ht : (t.standing id).IsGone) (h : t.step? m = some u) :
    (u.standing id).IsGone ∧
      (u.standing id).isParked = ((t.standing id).isParked && !m.takesOut id) := by
  have hgone : (u.standing id).IsGone := by
    rcases standing_step h id with he | hs
    · exact he ▸ ht
    · exact (hs.isGone ht).1
  refine ⟨hgone, ?_⟩
  cases hm : m.takesOut id with
  | true => rw [isParked_of_takesOut h hm, Bool.not_true, Bool.and_false]
  | false =>
    rw [Bool.not_false, Bool.and_true]
    rcases standing_step h id with he | hs
    · rw [he]
    · rcases (hs.isGone ht).2 with he | ⟨r, rfl⟩ | rfl
      · exact he
      · simp [Move.takesOut] at hm
      · simp [Move.takesOut] at hm

theorem isGone_run (ht : (t.standing id).IsGone) (h : t.run? later = some u) :
    (u.standing id).IsGone ∧ ((u.standing id).isParked = true ↔
      (t.standing id).isParked = true ∧ ∀ m ∈ later, m.takesOut id = false) := by
  refine foldlM_history (P := fun later u => (u.standing id).IsGone ∧
    ((u.standing id).isParked = true ↔
      (t.standing id).isParked = true ∧ ∀ m ∈ later, m.takesOut id = false))
    ⟨ht, by simp⟩ ?_ h
  rintro before u m v ⟨hgone, hparked⟩ hstep
  obtain ⟨hgone', hparked'⟩ := isGone_step hgone hstep
  refine ⟨hgone', ?_⟩
  rw [hparked', Bool.and_eq_true, hparked, and_assoc]
  simp [or_imp, forall_and]

/-- **An id that is parked belongs to a call that is under way, or its client has hung up.** The
table is left as it is by a client that hangs up. From then on the call is not under way any more,
and the id is in the table just as long as no reply is given for it and it is not drained. -/
theorem parked_of_run (h : (fresh attributes k).run? moves = some t) (id : String) :
    (id ∈ t.exchange.parked → t.IsUnderWay id ∨ .hangUp id ∈ moves) ∧
      (∀ u, t.step? (.hangUp id) = some u → u.exchange.parked = t.exchange.parked) ∧
      (.hangUp id ∈ moves → ∀ later u, t.run? later = some u →
        ¬ u.IsUnderWay id ∧ (id ∈ u.exchange.parked ↔
          id ∈ t.exchange.parked ∧ ∀ m ∈ later, m.takesOut id = false)) := by
  have hattended : t.Tidy ∧ t.Attended :=
    foldlM_induction (P := fun t => Tidy t ∧ Attended t)
      (fun ht hstep => ⟨tidy_step ht.1 hstep, attended_step ht.1 ht.2 hstep⟩)
      ⟨tidy_fresh attributes k, attended_fresh attributes k⟩ h
  simp only [← Exchange.isParked_iff]
  refine ⟨fun hid => ?_, fun u hu => (step_hangUp hu).2, fun hhung later u hu => ?_⟩
  · exact (hattended.2 id hid).isUnderWay.imp_right (isGone_iff h).1
  · obtain ⟨hgone, hparked⟩ := isGone_run ((isGone_iff h).2 hhung) hu
    exact ⟨not_isUnderWay_of_isGone hgone, hparked⟩

/-- A client hangs up whose request waits for a reply, and another one stays. -/
def hungUp : List Move :=
  [.park "a", .checkOpen "a", .park "b", .checkOpen "b",
    .handOver "a" ⟨[], .empty, default, []⟩ (.ok "hello"), .endJob "a", .join "a" 60, .hangUp "a"]

/-- The id stays, whatever becomes of the other request, until a reply is given for it. -/
theorem parked_of_run_hungUp :
    ∃ t, (fresh [] (.steady "desk")).run? hungUp = some t ∧ t.IsUnderWay "b" ∧
      (∀ later u, t.run? later = some u → (∀ m ∈ later, m.takesOut "a" = false) →
        "a" ∈ u.exchange.parked) ∧
      ∃ u, t.run? [.reply "a" (.plain 200 "done")] = some u ∧ u.exchange.parked = ["b"] := by
  have hrun : (fresh [] (.steady "desk")).run? hungUp = some _ := rfl
  obtain ⟨-, -, hstays⟩ := parked_of_run hrun "a"
  refine ⟨_, rfl, ⟨_, rfl, rfl⟩, fun later u hu hlater => ?_, _, rfl, rfl⟩
  exact (hstays (by simp [hungUp]) later u hu).2.2 ⟨by decide, hlater⟩

/-- **A client that hangs up leaves its id behind.** The request waits for its reply when its client
hangs up. The call is over and its job has ended; its id is in the table, and no end of a time
takes it out. -/
theorem parked_of_hungUp :
    ∃ t, (fresh [] (.steady "desk")).run? hungUp = some t ∧
      t.record.job "a" = .ended (.ran .forwarded) ∧ "a" ∈ t.exchange.parked ∧
      ¬ t.IsUnderWay "a" ∧ t.step? (.giveUp "a") = none ∧
      ∀ now, t.step? (.expire "a" now) = none := by
  refine ⟨_, rfl, rfl, by decide, ?_, rfl, fun now => rfl⟩
  rintro ⟨c, hc, hphase⟩
  cases hc
  cases hphase

end Traffic

end Correlator
