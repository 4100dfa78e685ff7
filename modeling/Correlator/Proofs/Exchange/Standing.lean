import Correlator.Proofs.Exchange.Traffic

/-!
# The standing of an id

Every step of calls, jobs and replies belongs to one id. What can be said of an id is put together
here, so that nothing else needs to be looked at to see what becomes of its request.

* `Standing`: what can be said of a single id; `Standing.Step`: what a step may do to it.
* **`Traffic.standing_step`**: a step changes the standing of no id but its own, and that in one of
  these ways.
-/

namespace Correlator

/-- What can be said of a single id. -/
@[ext]
structure Standing where
  call? : Option Call
  isParked : Bool
  job : JobState
  events : List Event
  taken : List Reply
  missed : List Reply

/-- The standing of an id. -/
def Traffic.standing (t : Traffic) (id : String) : Standing :=
  ⟨t.exchange.call? id, t.exchange.isParked id, t.record.job id, t.eventsOf id, t.taken id,
    t.missed id⟩

namespace Standing

/-- The call of the id changed. -/
def alter (s : Standing) (f : Call → Call) : Standing := { s with call? := s.call?.map f }

/-- The id is parked no longer. -/
def withdraw (s : Standing) : Standing := { s with isParked := false }

/-- The call answered by the exchange itself. -/
def conclude (s : Standing) (r : Reply) : Standing :=
  s.withdraw.alter fun c => { c with phase := .answered r }

/-- A reply taken out of the table for the call. -/
def take (s : Standing) (r : Reply) : Standing := s.withdraw.alter fun c => c.take r

/-- Where the call of the id stands. -/
def phase? (s : Standing) : Option CallPhase := s.call?.map Call.phase

@[simp] theorem phase?_alter (s : Standing) (f : Call → Call) :
    (s.alter f).phase? = s.call?.map fun c => (f c).phase := by
  simp [alter, phase?, Function.comp_def]

theorem phase?_conclude {s : Standing} {r : Reply} {p : CallPhase} (h : s.phase? = some p) :
    (s.conclude r).phase? = some (.answered r) := by
  obtain ⟨c, hc, -⟩ := Option.map_eq_some_iff.1 h
  simp [conclude, withdraw, hc]

/-- What a step may do to the standing of its id, at an exchange that is open or not and has a
consumer. -/
inductive Step (id : String) (isOpen : Bool) (k : Consumer) (s : Standing) :
    Traffic.Move → Standing → Prop
  | park : s.call? = none →
      Step id isOpen k s (.park id) { s with call? := some ⟨id, .parked, none⟩, isParked := true }
  | letIn : isOpen = true → s.phase? = some .parked →
      Step id isOpen k s (.checkOpen id)
        { s.alter fun c => { c with phase := .dispatching } with job := .submitted }
  | refuse : isOpen = false → s.phase? = some .parked →
      Step id isOpen k s (.checkOpen id) (s.conclude .sourceStopped)
  | handOver (d : Dispatch) (read : Except Fault String) : s.job = .submitted →
      Step id isOpen k s (.handOver id d read)
        { s with
          job := .ran (d.conclude read).1
          events := s.events ++ (d.conclude read).2.1.toList }
  | endJob {outcome} : s.job = .ran outcome →
      Step id isOpen k s (.endJob id)
        { s with job := .ended (k.endOf outcome s.events.getLast?) }
  | turnAway : s.job = .submitted →
      Step id isOpen k s (.turnAway id) { s with job := .ended .turnedAway }
  | reject {e r} (deadline : Nat) : s.job = .ended e → s.phase? = some .dispatching →
      e.rejection? = some r → Step id isOpen k s (.join id deadline) (s.conclude r)
  | await {e} (deadline : Nat) : s.job = .ended e → s.phase? = some .dispatching →
      e.rejection? = none → Step id isOpen k s (.join id deadline) (s.alter (·.await deadline))
  | expire {deadline} (now : Nat) : s.phase? = some (.waiting deadline) → deadline ≤ now →
      Step id isOpen k s (.expire id now) (s.alter fun c => { c with phase := .leaving true })
  | letGo : s.phase? = some (.leaving true) →
      Step id isOpen k s (.letGo id) (s.alter fun c => { c with phase := .leaving false })
  | giveUp : s.phase? = some (.leaving false) →
      Step id isOpen k s (.giveUp id) (s.conclude .timedOut)
  | hangUp : s.phase? = some .dispatching ∨ (∃ deadline, s.phase? = some (.waiting deadline)) →
      Step id isOpen k s (.hangUp id) (s.alter fun c => { c with phase := .gone })
  | reply (r : Reply) : s.isParked = true →
      Step id isOpen k s (.reply id r)
        { s.take r with
          taken := s.taken ++ if s.call?.any Call.isThere then [r] else []
          missed := s.missed ++
            if s.call?.any Call.isThere && s.call?.any Call.isLeaving then [r] else [] }
  | drain : s.isParked = true → Step id isOpen k s (.drain id) (s.take .sourceStopped)

end Standing

namespace Traffic

variable {t u : Traffic} {x : Exchange} {record : Record} {id id' : String} {m : Move}

theorem phase?_of_answer? {a : Reply} (h : t.answer? id = some a) :
    (t.standing id).phase? = some (.answered a) := by
  obtain ⟨c, hc, ha⟩ := Option.bind_eq_some_iff.1 h
  unfold Call.answer? at ha
  split at ha
  · rename_i r hphase
    cases ha
    simp [standing, Standing.phase?, hc, hphase]
  · cases ha

theorem answer?_of_phase? {a : Reply}
    (h : (t.standing id).phase? = some (.answered a)) : t.answer? id = some a := by
  obtain ⟨c, hc, ha⟩ := Option.map_eq_some_iff.1 h
  change t.exchange.call? id = some c at hc
  simp [answer?, hc, Call.answer?, ha]

theorem standing_alter {f : Call → Call} (hf : ∀ c, (f c).id = c.id) :
    standing ⟨x.alter id' f, record⟩ id =
      if id = id' then (standing ⟨x, record⟩ id).alter f else standing ⟨x, record⟩ id := by
  unfold standing
  rw [Exchange.call?_alter _ _ _ hf]
  split <;> rfl

theorem standing_letGo :
    standing ⟨x.letGo id', record⟩ id =
      if id = id' then (standing ⟨x, record⟩ id).alter fun c => { c with phase := .leaving false }
      else standing ⟨x, record⟩ id :=
  standing_alter fun _ => rfl

theorem standing_withdraw :
    standing ⟨x.withdraw id', record⟩ id =
      if id = id' then (standing ⟨x, record⟩ id).withdraw else standing ⟨x, record⟩ id := by
  unfold standing
  rw [Exchange.isParked_withdraw]
  split <;> rfl

theorem standing_conclude (r : Reply) :
    standing ⟨x.conclude id' r, record⟩ id =
      if id = id' then (standing ⟨x, record⟩ id).conclude r else standing ⟨x, record⟩ id := by
  unfold Exchange.conclude
  rw [standing_alter, standing_withdraw]
  · split <;> rfl
  · exact fun _ => rfl

theorem standing_reply (h : x.isParked id' = true) (r : Reply) :
    standing ⟨(x.reply id' r).1, record⟩ id =
      if id = id' then (standing ⟨x, record⟩ id).take r else standing ⟨x, record⟩ id := by
  unfold Exchange.isParked at h
  simp only [Exchange.reply, h, if_true]
  rw [standing_alter fun c => c.take_id r, standing_withdraw]
  split <;> rfl

theorem standing_setJob (j : JobState) :
    standing ⟨x, (t.setJob id' j).record⟩ id =
      if id = id' then { standing ⟨x, t.record⟩ id with job := j }
      else standing ⟨x, t.record⟩ id := by
  unfold standing
  by_cases h : id = id'
  · subst h
    simp [setJob, eventsOf, taken, missed]
  · simp [setJob, eventsOf, taken, missed, h]

theorem standing_events (e? : Option Event) :
    standing ⟨x, { record with events := record.events ++ (e?.map (id', ·)).toList }⟩ id =
      if id = id' then
        { standing ⟨x, record⟩ id with events := eventsOf ⟨x, record⟩ id ++ e?.toList }
      else standing ⟨x, record⟩ id := by
  unfold standing
  by_cases h : id = id'
  · subst h
    cases e? <;> simp [eventsOf, taken, missed]
  · cases e? <;> simp [eventsOf, taken, missed, h, Ne.symm h]

theorem standing_replies (r : Reply) (took lost : Bool) :
    standing ⟨x, { record with
        replies := record.replies ++ [(id', r, took)]
        missed := record.missed ++ if lost then [(id', r)] else [] }⟩ id =
      if id = id' then
        { standing ⟨x, record⟩ id with
          taken := taken ⟨x, record⟩ id ++ if took then [r] else []
          missed := missed ⟨x, record⟩ id ++ if lost then [r] else [] }
      else standing ⟨x, record⟩ id := by
  unfold standing
  by_cases h : id = id'
  · subst h
    cases took <;> cases lost <;> simp [eventsOf, taken, missed]
  · cases lost <;> simp [eventsOf, taken, missed, h, Ne.symm h]

/-! ### Steps of each kind -/

/-- A step does nothing to an id, or one of the things that it may do. -/
def StepsAt (t : Traffic) (m : Move) (u : Traffic) (id : String) : Prop :=
  u.standing id = t.standing id ∨
    Standing.Step id t.exchange.isOpen t.exchange.consumer (t.standing id) m (u.standing id)

/-- A step that makes one of its changes to its own id, and none to others. -/
theorem stepsAt_of_ite {s : Standing}
    (h : u.standing id = if id = id' then s else t.standing id)
    (hs : id = id' →
      Standing.Step id t.exchange.isOpen t.exchange.consumer (t.standing id) m s) :
    t.StepsAt m u id := by
  by_cases hid : id = id'
  · rw [if_pos hid] at h
    exact .inr (h ▸ hs hid)
  · rw [if_neg hid] at h
    exact .inl h

theorem stepsAt_park (h : t.step? (.park id') = some u) : t.StepsAt (.park id') u id := by
  simp only [step?] at h
  split at h
  · rename_i hnone
    cases h
    have hs : standing ⟨t.exchange.park id', t.record⟩ id =
        if id = id' then
          { t.standing id with call? := some ⟨id, .parked, none⟩, isParked := true }
        else t.standing id := by
      unfold standing
      rw [Exchange.call?_park id hnone, Exchange.isParked_park]
      split
      · rename_i hid
        subst hid
        rfl
      · rfl
    refine stepsAt_of_ite hs ?_
    rintro rfl
    exact .park hnone
  · cases h

/-- A call that is parked can check. -/
theorem isSome_checkOpen (h : (t.standing id).phase? = some .parked) :
    (t.step? (.checkOpen id)).isSome = true := by
  obtain ⟨⟨a, phase, e⟩, hc, hphase⟩ := Option.map_eq_some_iff.1 h
  change t.exchange.call? id = _ at hc
  cases hphase
  simp [step?, hc]

/-- A call that checks at a closed exchange is answered there and then. -/
theorem standing_checkOpen (hopen : t.exchange.isOpen = false)
    (h : t.step? (.checkOpen id') = some u) :
    (t.standing id').phase? = some .parked ∧ u.standing id =
      if id = id' then (t.standing id).conclude .sourceStopped else t.standing id := by
  simp only [step?] at h
  split at h
  · rename_i a e hc
    cases h
    simp only [Exchange.checkOpen, hopen]
    exact ⟨by simp [standing, Standing.phase?, hc], standing_conclude _⟩
  · cases h

/-- A call that checks at an open exchange is let in, and a job is submitted for it. -/
theorem standing_letIn (hopen : t.exchange.isOpen = true)
    (h : t.step? (.checkOpen id') = some u) :
    (t.standing id').phase? = some .parked ∧ u.standing id =
      if id = id' then
        { (t.standing id).alter fun c => { c with phase := .dispatching } with job := .submitted }
      else t.standing id := by
  simp only [step?, Exchange.checkOpen, hopen, if_true] at h
  split at h
  · rename_i a e hc
    cases h
    refine ⟨by simp [standing, Standing.phase?, hc], ?_⟩
    show standing ⟨t.exchange.alter id' _, (t.setJob id' .submitted).record⟩ id = _
    rw [standing_alter, standing_setJob]
    · split <;> rfl
    · exact fun _ => rfl
  · cases h

theorem stepsAt_checkOpen (h : t.step? (.checkOpen id') = some u) :
    t.StepsAt (.checkOpen id') u id := by
  cases hopen : t.exchange.isOpen with
  | false =>
    obtain ⟨hphase, hs⟩ := standing_checkOpen hopen h
    refine stepsAt_of_ite hs ?_
    rintro rfl
    exact .refuse hopen hphase
  | true =>
    obtain ⟨hphase, hs⟩ := standing_letIn hopen h
    refine stepsAt_of_ite hs ?_
    rintro rfl
    exact .letIn hopen hphase

/-- A job that has its turn hands over the event, if there is one. -/
theorem standing_handOver {d : Dispatch} {read : Except Fault String}
    (h : t.step? (.handOver id' d read) = some u) (id : String) :
    t.record.job id' = .submitted ∧ u.standing id =
      if id = id' then
        { t.standing id with
          job := .ran (d.conclude read).1
          events := (t.standing id).events ++ (d.conclude read).2.1.toList }
      else t.standing id := by
  simp only [step?] at h
  split at h
  · rename_i hjob
    cases h
    refine ⟨hjob, (standing_setJob _).trans ?_⟩
    rw [standing_events]
    split <;> rfl
  · cases h

theorem stepsAt_handOver {d : Dispatch} {read : Except Fault String}
    (h : t.step? (.handOver id' d read) = some u) : t.StepsAt (.handOver id' d read) u id := by
  obtain ⟨hjob, hs⟩ := standing_handOver h id
  refine stepsAt_of_ite hs ?_
  rintro rfl
  exact .handOver d read hjob

/-- A job that has run ends. -/
theorem standing_endJob (h : t.step? (.endJob id') = some u) (id : String) :
    ∃ outcome, t.record.job id' = .ran outcome ∧ u.standing id =
      if id = id' then
        { t.standing id with
          job := .ended (t.exchange.consumer.endOf outcome (t.eventsOf id').getLast?) }
      else t.standing id := by
  simp only [step?] at h
  split at h
  · rename_i outcome hjob
    cases h
    exact ⟨outcome, hjob, standing_setJob _⟩
  · cases h

theorem stepsAt_endJob (h : t.step? (.endJob id') = some u) : t.StepsAt (.endJob id') u id := by
  obtain ⟨outcome, hjob, hs⟩ := standing_endJob h id
  refine stepsAt_of_ite hs ?_
  rintro rfl
  exact .endJob hjob

/-- A job that has not had its turn is turned away. -/
theorem standing_turnAway (h : t.step? (.turnAway id') = some u) (id : String) :
    t.record.job id' = .submitted ∧ u.standing id =
      if id = id' then { t.standing id with job := .ended .turnedAway } else t.standing id := by
  simp only [step?] at h
  split at h
  · rename_i hjob
    cases h
    exact ⟨hjob, standing_setJob _⟩
  · cases h

theorem stepsAt_turnAway (h : t.step? (.turnAway id') = some u) :
    t.StepsAt (.turnAway id') u id := by
  obtain ⟨hjob, hs⟩ := standing_turnAway h id
  refine stepsAt_of_ite hs ?_
  rintro rfl
  exact .turnAway hjob

theorem stepsAt_join {deadline : Nat} (h : t.step? (.join id' deadline) = some u) :
    t.StepsAt (.join id' deadline) u id := by
  simp only [step?] at h
  split at h
  · rename_i e hjob
    cases h
    unfold Exchange.joined
    split
    · rename_i hc
      have hphase := Call.phase_of_isDispatching hc
      split
      · rename_i r hr
        refine stepsAt_of_ite (standing_conclude r) ?_
        rintro rfl
        exact .reject deadline hjob hphase hr
      · rename_i hr
        refine stepsAt_of_ite (standing_alter fun c => c.await_id deadline) ?_
        rintro rfl
        exact .await deadline hjob hphase hr
    · exact .inl rfl
  · cases h

theorem stepsAt_expire {now : Nat} (h : t.step? (.expire id' now) = some u) :
    t.StepsAt (.expire id' now) u id := by
  simp only [step?] at h
  split at h
  · rename_i hlate
    cases h
    obtain ⟨deadline, hphase, hdue⟩ := Call.phase_of_isLate hlate
    refine stepsAt_of_ite (standing_alter fun _ => rfl) ?_
    rintro rfl
    exact .expire now hphase hdue
  · cases h

theorem stepsAt_letGo (h : t.step? (.letGo id') = some u) : t.StepsAt (.letGo id') u id := by
  simp only [step?] at h
  split at h
  · rename_i hc
    cases h
    refine stepsAt_of_ite standing_letGo ?_
    rintro rfl
    exact .letGo (by simp [standing, Standing.phase?, hc])
  · cases h

theorem stepsAt_giveUp (h : t.step? (.giveUp id') = some u) : t.StepsAt (.giveUp id') u id := by
  simp only [step?] at h
  split at h
  · rename_i hc
    cases h
    refine stepsAt_of_ite (standing_conclude _) ?_
    rintro rfl
    exact .giveUp (by simp [standing, Standing.phase?, hc])
  · cases h

theorem stepsAt_hangUp (h : t.step? (.hangUp id') = some u) : t.StepsAt (.hangUp id') u id := by
  simp only [step?] at h
  have hhung : ∀ u', u' = some u → u' = some { t with exchange := t.exchange.hangUp id' } →
      u.standing id = if id = id' then
        (t.standing id).alter fun c => { c with phase := .gone } else t.standing id := by
    rintro _ rfl hu
    cases hu
    exact standing_alter fun _ => rfl
  split at h
  · rename_i a e hc
    refine stepsAt_of_ite (hhung _ h rfl) ?_
    rintro rfl
    exact .hangUp (.inl (by simp [standing, Standing.phase?, hc]))
  · rename_i a deadline e hc
    refine stepsAt_of_ite (hhung _ h rfl) ?_
    rintro rfl
    exact .hangUp (.inr ⟨deadline, by simp [standing, Standing.phase?, hc]⟩)
  · cases h

/-- A reply for a parked id takes it out. It is taken if it can be sent to the call, and missed if
the call looks for none any more. -/
theorem standing_replyStep {r : Reply} (hp : t.exchange.isParked id' = true)
    (h : t.step? (.reply id' r) = some u) :
    u.standing id =
      if id = id' then
        { (t.standing id).take r with
          taken := (t.standing id).taken ++
            if (t.standing id).call?.any Call.isThere then [r] else []
          missed := (t.standing id).missed ++
            if (t.standing id).call?.any Call.isThere && (t.standing id).call?.any Call.isLeaving
            then [r] else [] }
      else t.standing id := by
  simp only [step?, Option.some.injEq] at h
  subst h
  rw [standing_replies, standing_reply hp, Exchange.reply_snd hp]
  split
  · rename_i hid
    subst hid
    rfl
  · rfl

theorem stepsAt_reply {r : Reply} (h : t.step? (.reply id' r) = some u) :
    t.StepsAt (.reply id' r) u id := by
  cases hp : t.exchange.isParked id' with
  | true =>
    refine stepsAt_of_ite (standing_replyStep hp h) ?_
    rintro rfl
    exact .reply r hp
  | false =>
    simp only [step?, Option.some.injEq] at h
    subst h
    rw [Exchange.reply_of_not_isParked hp]
    refine .inl ((standing_replies r false false).trans ?_)
    split
    · simp [standing]
    · rfl

theorem stepsAt_of_endStep (h : EndStep t m u) : t.StepsAt m u id := by
  cases h with
  | close | beginListing | endListing => exact .inl rfl
  | drain id' =>
    unfold Exchange.drain
    cases hp : t.exchange.isParked id' with
    | false =>
      rw [Exchange.reply_of_not_isParked hp]
      exact .inl rfl
    | true =>
      refine stepsAt_of_ite (standing_reply hp _) ?_
      rintro rfl
      exact .drain hp

/-- **A step changes the standing of no id but its own.** -/
theorem standing_step (h : t.step? m = some u) (id : String) : t.StepsAt m u id := by
  cases m with
  | park id' => exact stepsAt_park h
  | checkOpen id' => exact stepsAt_checkOpen h
  | handOver id' d read => exact stepsAt_handOver h
  | endJob id' => exact stepsAt_endJob h
  | turnAway id' => exact stepsAt_turnAway h
  | join id' deadline => exact stepsAt_join h
  | expire id' now => exact stepsAt_expire h
  | letGo id' => exact stepsAt_letGo h
  | giveUp id' => exact stepsAt_giveUp h
  | hangUp id' => exact stepsAt_hangUp h
  | reply id' r => exact stepsAt_reply h
  | close | beginListing | endListing ids | drain id' =>
    exact stepsAt_of_endStep (endStep_of_step? rfl h)

end Traffic

end Correlator
