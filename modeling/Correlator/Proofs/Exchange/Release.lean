import Correlator.Proofs.Exchange.Closing
import Correlator.Proofs.Exchange.Replies

/-!
# Calls that are released

What becomes of a call whose id is parked when its exchange ends. It is given its reply there and
then, but it looks at its job before it looks at any reply, and a call whose time has run out looks
at no reply any more.

* `JobState.verdict`: what a released call is answered with, by what has become of its job and by
  whether it was leaving when it was released.
* `Standing.Parked`: where a call stands while its id is parked, and that it has no reply yet;
  every step keeps it so (`Standing.Step.parked`).
* `Standing.Released`: where a call stands once its id was drained; every step at a closed exchange
  keeps it so (`Standing.Step.released`).
* `Traffic.standing_foldl_drain`: what a drain does to an id that is parked.
* **`Traffic.released_disconnect`**: the end of an exchange releases every id that is parked.
* **`Traffic.answer_of_released`**: a call that was released can go on to its answer.
-/

namespace Correlator

/-- What a call that was released is answered with: the job has the first word, but for a call
that was leaving already. -/
def JobState.verdict (late : Bool) (j : JobState) : Reply :=
  if late then .timedOut
  else
    match j with
    | .ended e => e.rejection?.getD .sourceStopped
    | _ => .sourceStopped

/-- Only a job that has ended with a rejection keeps a call from the reply that it was given, or
that its time had run out before. -/
theorem JobState.verdict_eq_sourceStopped_iff (late : Bool) (j : JobState) :
    j.verdict late = .sourceStopped ↔ late = false ∧
      j ≠ .ended (.ran .emptyPayload) ∧ j ≠ .ended (.ran .readFailed) ∧ j ≠ .ended .crashed := by
  have htimedOut : Reply.timedOut ≠ .sourceStopped := by decide +kernel
  have hempty : Reply.plain 400 "Empty payload" ≠ .sourceStopped := by decide +kernel
  have hread : Reply.plain 400 "Unreadable payload" ≠ .sourceStopped := by decide +kernel
  have hcrashed : Reply.plain 500 "Dispatch failed" ≠ .sourceStopped := by decide +kernel
  cases late with
  | true => simp [verdict, htimedOut]
  | false =>
    cases j with
    | ended e =>
      cases e with
      | ran outcome => cases outcome <;> simp [verdict, DispatchEnd.rejection?, hempty, hread]
      | crashed | turnedAway => simp [verdict, DispatchEnd.rejection?, hcrashed]
    | unsubmitted | submitted | ran => simp [verdict]

theorem JobState.verdict_of_ended {j : JobState} {e : DispatchEnd} (h : j = .ended e) :
    j.verdict false = e.rejection?.getD .sourceStopped := by
  rw [h]
  rfl

namespace Standing

variable {id : String} {isOpen late : Bool} {k : Consumer} {s s' : Standing} {m : Traffic.Move}

/-! ## Parked ids -/

/-- Where a call stands while its id is parked, and how far its job has come. No reply has come for
it yet. -/
inductive Parked (s : Standing) : Prop
  | checking (id : String) : s.call? = some ⟨id, .parked, none⟩ → s.job = .unsubmitted → Parked s
  | dispatching (id : String) : s.call? = some ⟨id, .dispatching, none⟩ →
      s.job ≠ .unsubmitted → Parked s
  | waiting (id : String) (deadline : Nat) {e : DispatchEnd} :
      s.call? = some ⟨id, .waiting deadline, none⟩ → s.job = .ended e → e.rejection? = none →
      Parked s
  | leaving (id : String) (holds : Bool) {e : DispatchEnd} :
      s.call? = some ⟨id, .leaving holds, none⟩ → s.job = .ended e → Parked s
  | gone (id : String) : s.call? = some ⟨id, .gone, none⟩ → Parked s

/-- A call that is still waiting stays where it is when its job goes on. -/
theorem Parked.setJob (h : s.Parked) {j : JobState} (hs : s.job ≠ .unsubmitted)
    (hended : ∀ e, s.job ≠ .ended e) (hj : j ≠ .unsubmitted) (events : List Event) :
    Parked { s with job := j, events } := by
  cases h with
  | checking id hc hjob => exact absurd hjob hs
  | dispatching id hc => exact .dispatching id hc hj
  | waiting _ _ _ hjob | leaving _ _ _ hjob => exact absurd hjob (hended _)
  | gone id hc => exact .gone id hc

/-- Every step leaves the call of a parked id in one of these places. -/
theorem Step.parked (hs : Step id isOpen k s m s') (hquiet : s.Quiet)
    (h : s.isParked = true → s.Parked) : s'.isParked = true → s'.Parked := by
  intro hparked
  cases hs with
  | park hnone =>
    have hwas : s.phase? = none := by simp [phase?, hnone]
    exact .checking id rfl (hquiet (.inl hwas)).1
  | letIn _ hwas =>
    cases h hparked with
    | checking id hc => exact .dispatching id (by simp [alter, hc]) JobState.noConfusion
    | dispatching _ hc | waiting _ _ hc | leaving _ _ hc | gone _ hc => simp [phase?, hc] at hwas
  | handOver d read hjob =>
    exact (h hparked).setJob (by simp [hjob]) (by simp [hjob]) JobState.noConfusion _
  | endJob hjob =>
    exact (h hparked).setJob (by simp [hjob]) (by simp [hjob]) JobState.noConfusion _
  | turnAway hjob =>
    exact (h hparked).setJob (by simp [hjob]) (by simp [hjob]) JobState.noConfusion _
  | await deadline hjob hwas hr =>
    cases h hparked with
    | dispatching id hc => exact .waiting id deadline (by simp [alter, hc, Call.await]) hjob hr
    | checking _ hc | waiting _ _ hc | leaving _ _ hc | gone _ hc => simp [phase?, hc] at hwas
  | expire _ hwas =>
    cases h hparked with
    | waiting id deadline hc hjob => exact .leaving id true (by simp [alter, hc]) hjob
    | checking _ hc | dispatching _ hc | leaving _ _ hc | gone _ hc => simp [phase?, hc] at hwas
  | letGo hwas =>
    cases h hparked with
    | leaving id holds hc hjob => exact .leaving id false (by simp [alter, hc]) hjob
    | checking _ hc | dispatching _ hc | waiting _ _ hc | gone _ hc => simp [phase?, hc] at hwas
  | hangUp hwas =>
    cases h hparked with
    | checking _ hc | leaving _ _ hc | gone _ hc => simp [phase?, hc] at hwas
    | dispatching id hc | waiting id deadline hc => exact .gone id (by simp [alter, hc])
  | refuse | reject | giveUp | reply | drain => cases hparked

/-! ## Released ids -/

/-- Where a call stands once its id was drained, by whether it was leaving then. If it was, it goes
on as it did; otherwise it has its reply, or has yet to look at it. -/
inductive Place (s : Standing) : Bool → Prop
  | checking (id : String) : s.call? = some ⟨id, .parked, some .sourceStopped⟩ →
      s.job = .unsubmitted → Place s false
  | dispatching (id : String) : s.call? = some ⟨id, .dispatching, some .sourceStopped⟩ →
      s.job ≠ .unsubmitted → Place s false
  | leaving {holds : Bool} {e : DispatchEnd} : s.phase? = some (.leaving holds) →
      s.job = .ended e → Place s true
  | answered {late : Bool} {r : Reply} : s.phase? = some (.answered r) → s.job.verdict late = r →
      (s.job = .unsubmitted ∨ ∃ e, s.job = .ended e) → Place s late
  | gone : s.phase? = some .gone → Place s false

/-- The id of a call was drained. -/
structure Released (s : Standing) (late : Bool) : Prop where
  withdrawn : s.isParked = false
  place : s.Place late

/-- To drain an id that is parked is to release its call. -/
theorem Parked.released (h : s.Parked) :
    (s.take .sourceStopped).Released (s.call?.any Call.isLeaving) := by
  refine ⟨rfl, ?_⟩
  cases h with
  | checking id hc hjob =>
    rw [hc]
    exact .checking id (by simp [take, withdraw, alter, hc, Call.take]) hjob
  | dispatching id hc hjob =>
    rw [hc]
    exact .dispatching id (by simp [take, withdraw, alter, hc, Call.take]) hjob
  | waiting id deadline hc hjob hr =>
    rw [hc]
    refine .answered (r := .sourceStopped) (by simp [take, withdraw, hc, Call.take]) ?_
      (.inr ⟨_, hjob⟩)
    exact (JobState.verdict_of_ended hjob).trans (by rw [hr]; rfl)
  | leaving id holds hc hjob =>
    rw [hc]
    have hphase : (s.take .sourceStopped).phase? = some (.leaving holds) := by
      simp [take, withdraw, hc, Call.take]
    exact .leaving hphase hjob
  | gone id hc =>
    rw [hc]
    exact .gone (by simp [take, withdraw, hc, Call.take])

/-- A call that was released stays so while its job goes on. -/
theorem Place.setJob (h : s.Place late) {j : JobState} (hs : s.job ≠ .unsubmitted)
    (hended : ∀ e, s.job ≠ .ended e) (hj : j ≠ .unsubmitted) (events : List Event) :
    Place { s with job := j, events } late := by
  cases h with
  | checking id hc hjob => exact absurd hjob hs
  | dispatching id hc => exact .dispatching id hc hj
  | leaving _ hjob => exact absurd hjob (hended _)
  | answered _ _ hjob =>
    rcases hjob with hjob | ⟨e, hjob⟩
    · exact absurd hjob hs
    · exact absurd hjob (hended e)
  | gone hphase => exact .gone hphase

/-- At an exchange that is closed every step leaves a released call so. -/
theorem Step.released (hs : Step id false k s m s') (h : s.Released late) : s'.Released late := by
  obtain ⟨hparked, h⟩ := h
  cases hs with
  | park hnone =>
    cases h with
    | checking id hc | dispatching id hc => simp [hnone] at hc
    | leaving hphase | answered hphase | gone hphase => simp [phase?, hnone] at hphase
  | letIn hopen => cases hopen
  | refuse _ hwas =>
    cases h with
    | checking id hc hjob =>
      exact ⟨rfl, .answered (phase?_conclude hwas) (congrArg (JobState.verdict false) hjob)
        (.inl hjob)⟩
    | dispatching id hc => simp [phase?, hc] at hwas
    | leaving hphase | answered hphase | gone hphase => simp [hphase] at hwas
  | handOver d read hjob =>
    exact ⟨hparked, h.setJob (by simp [hjob]) (by simp [hjob]) JobState.noConfusion _⟩
  | endJob hjob =>
    exact ⟨hparked, h.setJob (by simp [hjob]) (by simp [hjob]) JobState.noConfusion _⟩
  | turnAway hjob =>
    exact ⟨hparked, h.setJob (by simp [hjob]) (by simp [hjob]) JobState.noConfusion _⟩
  | @reject e r deadline hjob hwas hr =>
    cases h with
    | dispatching id hc =>
      refine ⟨rfl, .answered (phase?_conclude hwas) ?_ (.inr ⟨e, hjob⟩)⟩
      exact (JobState.verdict_of_ended hjob).trans (by rw [hr]; rfl)
    | checking id hc => simp [phase?, hc] at hwas
    | leaving hphase | answered hphase | gone hphase => simp [hphase] at hwas
  | @await e deadline hjob hwas hr =>
    cases h with
    | checking id hc => simp [phase?, hc] at hwas
    | dispatching id hc =>
      refine ⟨hparked, .answered (r := .sourceStopped) (by simp [hc, Call.await]) ?_
        (.inr ⟨e, hjob⟩)⟩
      exact (JobState.verdict_of_ended hjob).trans (by rw [hr]; rfl)
    | leaving hphase | answered hphase | gone hphase => simp [hphase] at hwas
  | expire _ hwas =>
    cases h with
    | checking id hc | dispatching id hc => simp [phase?, hc] at hwas
    | leaving hphase | answered hphase | gone hphase => simp [hphase] at hwas
  | letGo hwas =>
    cases h with
    | leaving hphase hjob =>
      obtain ⟨c, hc, -⟩ := Option.map_eq_some_iff.1 hphase
      have hgone : (s.alter fun c => { c with phase := .leaving false }).phase? =
          some (.leaving false) := by
        simp [hc]
      exact ⟨hparked, .leaving hgone hjob⟩
    | checking id hc | dispatching id hc => simp [phase?, hc] at hwas
    | answered hphase | gone hphase => simp [hphase] at hwas
  | giveUp hwas =>
    cases h with
    | leaving _ hjob => exact ⟨rfl, .answered (phase?_conclude hwas) rfl (.inr ⟨_, hjob⟩)⟩
    | checking id hc | dispatching id hc => simp [phase?, hc] at hwas
    | answered hphase | gone hphase => simp [hphase] at hwas
  | hangUp hwas =>
    cases h with
    | checking id hc => simp [phase?, hc] at hwas
    | dispatching id hc => exact ⟨hparked, .gone (by simp [hc])⟩
    | leaving hphase | answered hphase | gone hphase => simp [hphase] at hwas
  | reply _ hwas | drain hwas => simp [hparked] at hwas

end Standing

namespace Traffic

variable {t u : Traffic} {m : Move} {x : Exchange} {r : Record} {id : String} {late : Bool}

/-! ## The end of an exchange -/

/-- What a drain does to an id, whether it is parked or not. -/
theorem standing_drain (id' : String) :
    standing ⟨x.drain id', r⟩ id =
      if id = id' ∧ x.isParked id = true then (standing ⟨x, r⟩ id).take .sourceStopped
      else standing ⟨x, r⟩ id := by
  unfold Exchange.drain
  cases hp : x.isParked id' with
  | false =>
    rw [Exchange.reply_of_not_isParked hp, if_neg]
    rintro ⟨rfl, hp'⟩
    exact Bool.noConfusion (hp.symm.trans hp')
  | true =>
    rw [standing_reply hp]
    by_cases hid : id = id'
    · subst hid
      rw [if_pos rfl, if_pos ⟨rfl, hp⟩]
    · rw [if_neg hid, if_neg fun h => hid h.1]

/-- An id that is parked and listed is drained once, wherever it stands in the list. -/
theorem standing_foldl_drain {ids : List String} (hid : id ∈ ids) (hp : x.isParked id = true) :
    standing ⟨ids.foldl Exchange.drain x, r⟩ id =
      (standing ⟨x, r⟩ id).take .sourceStopped := by
  have hkept : ∀ (ids : List String) (x : Exchange), x.isParked id = false →
      standing ⟨ids.foldl Exchange.drain x, r⟩ id = standing ⟨x, r⟩ id := by
    intro ids
    induction ids with
    | nil => exact fun _ _ => rfl
    | cons id' ids ih =>
      intro x hp
      have hstanding : standing ⟨x.drain id', r⟩ id = standing ⟨x, r⟩ id := by
        rw [standing_drain, if_neg fun h => by simp [hp] at h]
      exact (ih _ ((congrArg Standing.isParked hstanding).trans hp)).trans hstanding
  induction ids generalizing x with
  | nil => cases hid
  | cons id' ids ih =>
    have hstanding : standing ⟨x.drain id', r⟩ id =
        if id = id' ∧ x.isParked id = true then (standing ⟨x, r⟩ id).take .sourceStopped
        else standing ⟨x, r⟩ id := standing_drain id'
    by_cases h : id = id'
    · rw [if_pos ⟨h, hp⟩] at hstanding
      exact (hkept ids _ (congrArg Standing.isParked hstanding)).trans hstanding
    · rw [if_neg fun h' => h h'.1] at hstanding
      have hp' := (congrArg Standing.isParked hstanding).trans hp
      rw [List.foldl_cons, ih ((List.mem_cons.1 hid).resolve_left h) hp', hstanding]

/-- What holds of the calls of all parked ids. -/
def Attended (t : Traffic) : Prop :=
  ∀ id, (t.standing id).isParked = true → (t.standing id).Parked

theorem attended_fresh (attributes : List String) (k : Consumer) :
    (fresh attributes k).Attended := fun _ h => Bool.noConfusion h

theorem attended_step (htidy : t.Tidy) (ht : t.Attended) (h : t.step? m = some u) :
    u.Attended := by
  intro id
  rcases standing_step h id with he | hs
  · exact he ▸ ht id
  · exact hs.parked (htidy.2 id) (ht id)

/-- Whether the call of an id looks for no reply any more. -/
def isLeaving (t : Traffic) (id : String) : Bool := (t.exchange.call? id).any Call.isLeaving

/-- **The end of an exchange releases every call whose id is parked.** -/
theorem released_disconnect (ht : t.Attended) (hid : id ∈ t.exchange.parked) (closing : Closing) :
    (standing ⟨t.exchange.disconnect, { t.record with closing }⟩ id).Released
      (t.isLeaving id) := by
  have hp : t.exchange.isParked id = true := (Exchange.isParked_iff _ _).2 hid
  have hp' : t.exchange.close.isParked id = true := hp
  unfold Exchange.disconnect
  have hmem : id ∈ t.exchange.close.parked := hid
  rw [standing_foldl_drain hmem hp']
  exact (ht id hp).released

/-- A call that was released stays so, whatever happens at its exchange. -/
theorem released_step (hopen : t.exchange.isOpen = false) (ht : (t.standing id).Released late)
    (h : t.step? m = some u) : (u.standing id).Released late := by
  rcases standing_step h id with he | hs
  · exact he ▸ ht
  · rw [hopen] at hs
    exact hs.released ht

/-! ## The answers of released calls -/

/-- A call that was released has no other answer than its job allows. -/
theorem answer?_of_released (h : (t.standing id).Released late) {a : Reply}
    (ha : t.answer? id = some a) : a = (t.record.job id).verdict late := by
  have hphase := phase?_of_answer? ha
  cases h.place with
  | checking id hc | dispatching id hc => simp [Standing.phase?, hc] at hphase
  | answered hwas hverdict =>
    cases hwas.symm.trans hphase
    exact hverdict.symm
  | leaving hwas | gone hwas => cases hwas.symm.trans hphase

/-- A job that was submitted can go on to its end. -/
theorem ended_of_submitted (hjob : t.record.job id ≠ .unsubmitted) (d : Dispatch)
    (read : Except Fault String) :
    ∃ moves u e, t.run? moves = some u ∧ u.exchange = t.exchange ∧ u.record.job id = .ended e ∧
      (t.record.job id = .submitted →
        e = t.exchange.consumer.endOf (d.conclude read).1 (d.conclude read).2.1) := by
  cases hj : t.record.job id with
  | unsubmitted => exact absurd hj hjob
  | submitted =>
    obtain ⟨u, hu, hexchange, hended⟩ := exists_ending hj d read
    exact ⟨_, u, _, hu, hexchange, hended, fun _ => rfl⟩
  | ran outcome =>
    exact ⟨[.endJob id], _, _, foldlM_cons_of_step (step?_endJob hj), rfl, Function.update_self ..,
      fun h => JobState.noConfusion h⟩
  | ended e => exact ⟨[], t, e, rfl, rfl, hj, fun h => JobState.noConfusion h⟩

/-- **A call that was released can go on to its answer**, unless its client has hung up. If its job
is still to have its turn, then the job ends as the body and the consumer have it. -/
theorem answer_of_released (hopen : t.exchange.isOpen = false)
    (h : (t.standing id).Released late) (hgone : (t.standing id).phase? ≠ some .gone)
    (d : Dispatch) (read : Except Fault String) :
    ∃ moves u, t.run? moves = some u ∧ u.answer? id = some ((u.record.job id).verdict late) ∧
      (t.record.job id = .submitted → u.record.job id =
        .ended (t.exchange.consumer.endOf (d.conclude read).1 (d.conclude read).2.1)) := by
  cases h.place with
  | checking id' hc hjob =>
    have hphase : (t.standing id).phase? = some .parked := by simp [Standing.phase?, hc]
    obtain ⟨u, hu⟩ := Option.isSome_iff_exists.1 (isSome_checkOpen hphase)
    have hs : u.standing id = (t.standing id).conclude .sourceStopped := by
      rw [(standing_checkOpen hopen hu).2, if_pos rfl]
    have hjob' : u.record.job id = .unsubmitted := (congrArg Standing.job hs).trans hjob
    refine ⟨[.checkOpen id], u, foldlM_cons_of_step hu, ?_, fun h => ?_⟩
    · rw [hjob']
      exact answer?_of_phase? (hs ▸ Standing.phase?_conclude hphase)
    · cases hjob.symm.trans h
  | dispatching id' hc hjob =>
    obtain ⟨moves, v, e, hrun, hexchange, hended, he⟩ := ended_of_submitted hjob d read
    have hc' : v.exchange.call? id = some ⟨id', .dispatching, some .sourceStopped⟩ :=
      hexchange ▸ hc
    obtain ⟨u, hu, hrecord, hphase⟩ := exists_join hc' rfl hended 0
    refine ⟨moves ++ [.join id 0], u, ?_, ?_, fun h => ?_⟩
    · exact (foldlM_append_of_run hrun).trans (foldlM_cons_of_step hu)
    · rw [hrecord, JobState.verdict_of_ended hended]
      refine answer?_of_phase? (hphase.trans ?_)
      cases e.rejection? <;> rfl
    · rw [hrecord, hended, he h]
  | leaving hphase hjob =>
    obtain ⟨moves, u, -, hu, hrecord, hanswer, -⟩ := exists_giveUp hphase
    exact ⟨moves, u, hu, hanswer, fun h => JobState.noConfusion (hjob.symm.trans h)⟩
  | answered hphase hverdict hjob =>
    refine ⟨[], t, rfl, ?_, fun h => ?_⟩
    · subst hverdict
      exact answer?_of_phase? hphase
    · rcases hjob with hjob | ⟨e, hjob⟩
      · cases hjob.symm.trans h
      · cases hjob.symm.trans h
  | gone hphase => exact absurd hphase hgone

end Traffic

end Correlator
