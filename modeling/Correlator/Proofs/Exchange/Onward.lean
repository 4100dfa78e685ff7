import Correlator.Proofs.Exchange.Standing

/-!
# How calls go on

What a call can do next, wherever it stands, and where that leads it.

* `Traffic.exists_checkOpen`: a call that is parked can check, and is let in or turned down.
* `Traffic.exists_ending`: a job that was submitted can have its turn and end.
* `Traffic.exists_join`: a call whose job has ended can be told so. Then it is answered, or its time
  begins (`Exchange.phase_joined`).
* `Traffic.exists_reply`: a reply can be given for an id that is parked, and is the answer of a call
  that waits for it.
* `Traffic.exists_departure`, `Traffic.exists_giveUp`: a call whose time has run out can leave, and
  a call that leaves can go on to its answer.

A call that was concluded has its answer, and its id is in the table no longer
(`Traffic.answered_of_conclude`).
-/

namespace Correlator

/-- What a call does that is told how its job has ended. -/
theorem Exchange.phase_joined {x : Exchange} {id : String} {c : Call} (hc : x.call? id = some c)
    (hphase : c.phase = .dispatching) (e : DispatchEnd) (deadline : Nat) :
    ((x.joined id e deadline).call? id).map Call.phase = some
      (match e.rejection?.or c.early? with
      | some a => .answered a
      | none => .waiting deadline) := by
  have hdispatching : (x.call? id).any Call.isDispatching = true := by
    simp [hc, Call.isDispatching, hphase]
  unfold joined
  rw [if_pos hdispatching]
  cases hr : e.rejection? with
  | some a =>
    rw [call?_conclude, if_pos rfl, hc]
    rfl
  | none =>
    rw [call?_alter _ _ _ fun c => c.await_id deadline, if_pos rfl, hc]
    cases hearly : c.early? <;> simp [Call.await, hearly]

/-- It does not matter where a call stands that is concluded. -/
theorem Standing.conclude_alter (s : Standing) (p : CallPhase) (r : Reply) :
    (s.alter fun c => { c with phase := p }).conclude r = s.conclude r := by
  simp [conclude, withdraw, alter, Function.comp_def]

namespace Traffic

variable {t u : Traffic} {id : String}

theorem answered_of_conclude {r : Reply} {p : CallPhase} (hphase : (t.standing id).phase? = some p)
    (h : u.standing id = (t.standing id).conclude r) :
    u.answer? id = some r ∧ id ∉ u.exchange.parked := by
  constructor
  · refine answer?_of_phase? ?_
    rw [h]
    exact Standing.phase?_conclude hphase
  · have hparked : u.exchange.isParked id = false := congrArg Standing.isParked h
    simp [← Exchange.isParked_iff, hparked]

theorem exists_checkOpen (hphase : (t.standing id).phase? = some .parked) :
    ∃ u, t.step? (.checkOpen id) = some u ∧
      (t.exchange.isOpen = true → (u.standing id).phase? = some .dispatching) ∧
      (t.exchange.isOpen = false → u.answer? id = some .sourceStopped ∧
        id ∉ u.exchange.parked) := by
  obtain ⟨u, hu⟩ := Option.isSome_iff_exists.1 (isSome_checkOpen hphase)
  refine ⟨u, hu, fun hopen => ?_, fun hopen => ?_⟩
  · rw [(standing_letIn hopen hu).2, if_pos rfl]
    obtain ⟨c, hc, -⟩ := Option.map_eq_some_iff.1 hphase
    simp [Standing.phase?, Standing.alter, hc]
  · have hs : u.standing id = (t.standing id).conclude .sourceStopped :=
      (standing_checkOpen hopen hu).2.trans (if_pos rfl)
    exact answered_of_conclude hphase hs

/-- A job that has run can come to its end. -/
theorem step?_endJob {outcome : DispatchOutcome} (h : t.record.job id = .ran outcome) :
    t.step? (.endJob id) = some (t.setJob id
      (.ended (t.exchange.consumer.endOf outcome (t.eventsOf id).getLast?))) := by
  simp [step?, h]

theorem exists_ending (hjob : t.record.job id = .submitted) (d : Dispatch)
    (read : Except Fault String) :
    ∃ u, t.run? [.handOver id d read, .endJob id] = some u ∧ u.exchange = t.exchange ∧
      u.record.job id =
        .ended (t.exchange.consumer.endOf (d.conclude read).1 (d.conclude read).2.1) := by
  obtain ⟨v, hv⟩ : ∃ v, t.step? (.handOver id d read) = some v := by simp [step?, hjob]
  have hs := (standing_handOver hv id).2
  rw [if_pos rfl] at hs
  have hran : v.record.job id = .ran (d.conclude read).1 := congrArg Standing.job hs
  have hevents : v.eventsOf id = t.eventsOf id ++ (d.conclude read).2.1.toList :=
    congrArg Standing.events hs
  have hexchange : v.exchange = t.exchange := by
    simp only [step?, hjob, if_true, Option.some.injEq] at hv
    subst hv
    rfl
  have hend := step?_endJob hran
  rw [hexchange, hevents, Consumer.endOf_conclude] at hend
  exact ⟨_, (foldlM_cons_of_step hv).trans (foldlM_cons_of_step hend), hexchange,
    Function.update_self ..⟩

theorem exists_join {c : Call} {e : DispatchEnd} (hc : t.exchange.call? id = some c)
    (hphase : c.phase = .dispatching) (hjob : t.record.job id = .ended e) (deadline : Nat) :
    ∃ u, t.step? (.join id deadline) = some u ∧ u.record = t.record ∧
      (u.standing id).phase? = some (match e.rejection?.or c.early? with
        | some a => .answered a
        | none => .waiting deadline) :=
  ⟨{ t with exchange := t.exchange.joined id e deadline }, by simp [step?, hjob], rfl,
    Exchange.phase_joined hc hphase e deadline⟩

theorem exists_reply {deadline : Nat} (hparked : id ∈ t.exchange.parked)
    (hphase : (t.standing id).phase? = some (.waiting deadline)) (r : Reply) :
    ∃ u, t.step? (.reply id r) = some u ∧ u.answer? id = some r ∧ id ∉ u.exchange.parked := by
  obtain ⟨u, hu⟩ : ∃ u, t.step? (.reply id r) = some u := ⟨_, rfl⟩
  have hs : u.standing id = _ :=
    (standing_replyStep ((Exchange.isParked_iff _ _).2 hparked) hu).trans (if_pos rfl)
  obtain ⟨c, hc, hwaits⟩ := Option.map_eq_some_iff.1 hphase
  have hleft : u.exchange.isParked id = false := congrArg Standing.isParked hs
  refine ⟨u, hu, answer?_of_phase? ?_, by simp [← Exchange.isParked_iff, hleft]⟩
  rw [hs]
  simp [Standing.phase?, Standing.take, Standing.withdraw, Standing.alter, hc, Call.take, hwaits]

theorem exists_departure {deadline now : Nat}
    (hphase : (t.standing id).phase? = some (.waiting deadline)) (hdue : deadline ≤ now) :
    ∃ u, t.run? (departure id now) = some u ∧ u.answer? id = some .timedOut ∧
      id ∉ u.exchange.parked := by
  obtain ⟨c, hc, hwaits⟩ := Option.map_eq_some_iff.1 hphase
  change t.exchange.call? id = some c at hc
  have hlate : (t.exchange.call? id).any (·.isLate now) = true := by
    simp [hc, Call.isLate, hwaits, hdue]
  refine ⟨_, run?_departure hlate t.record, answered_of_conclude hphase ?_⟩
  exact (standing_conclude _).trans (if_pos rfl)

/-- A call that leaves has at most two steps to go. -/
theorem exists_giveUp {holds : Bool} (hphase : (t.standing id).phase? = some (.leaving holds)) :
    ∃ moves u, moves ⊆ [.letGo id, .giveUp id] ∧ t.run? moves = some u ∧
      u.record = t.record ∧ u.answer? id = some .timedOut ∧ id ∉ u.exchange.parked := by
  obtain ⟨⟨a, phase, early?⟩, hc, hleaves⟩ := Option.map_eq_some_iff.1 hphase
  change t.exchange.call? id = _ at hc
  cases hleaves
  cases holds with
  | false =>
    have hstep : t.step? (.giveUp id) = some { t with exchange := t.exchange.giveUp id } := by
      simp only [step?, hc]
    refine ⟨[.giveUp id], _, by simp, foldlM_cons_of_step hstep, rfl,
      answered_of_conclude hphase ?_⟩
    exact (standing_conclude _).trans (if_pos rfl)
  | true =>
    have hletGo : t.step? (.letGo id) = some { t with exchange := t.exchange.letGo id } := by
      simp only [step?, hc]
    have hc' : (t.exchange.letGo id).call? id = some ⟨a, .leaving false, early?⟩ := by
      rw [Exchange.call?_letGo, if_pos rfl, hc]
      rfl
    have hgiveUp : step? { t with exchange := t.exchange.letGo id } (.giveUp id) =
        some { t with exchange := (t.exchange.letGo id).giveUp id } := by
      simp only [step?, hc']
    refine ⟨[.letGo id, .giveUp id], _, by simp,
      (foldlM_cons_of_step hletGo).trans (foldlM_cons_of_step hgiveUp), rfl,
      answered_of_conclude hphase ?_⟩
    refine (standing_conclude _).trans ((if_pos rfl).trans ?_)
    rw [standing_letGo, if_pos rfl, Standing.conclude_alter]

end Traffic

end Correlator
