import Correlator.Proofs.Exchange.Office

/-!
# Calls that are heard

Where the calls of a source stand while nobody stops it, by the clock.

* `Standing.Heard`: where a call stands while nobody stops the source; every step keeps it so
  (`Standing.Heard.step`).
* `Standing.Informed`: a call waits for its job before it waits for a reply.
* `Office.Heeds`: what holds of all calls; every step of a source at work keeps it so
  (`Office.heeds_step`).

Replies may be given for any id at any time, and clients may hang up.
-/

namespace Correlator

/-! ## Calls at a source that is not stopped -/

/-- Whether a step that waits for the clock is taken at its time. -/
def Traffic.Move.IsAt (now timeout : Nat) : Traffic.Move → Prop
  | .join _ deadline => deadline = now + timeout
  | .expire _ time => time = now
  | _ => True

theorem Traffic.Move.isAt_of_isTimed {m : Traffic.Move} (h : m.isTimed = false)
    (now timeout : Nat) : m.IsAt now timeout := by
  cases m with
  | join | expire => cases h
  | _ => trivial

namespace Standing

/-- Where a call stands at a source that is not being stopped, by a clock, and by the time at which
it was told how its job had ended. -/
inductive Heard (timeout now : Nat) (told? : Option Nat) : Standing → Prop
  | absent {events} : Heard timeout now told? ⟨none, false, .unsubmitted, events, [], []⟩
  | parked {id events} :
      Heard timeout now told? ⟨some ⟨id, .parked, none⟩, true, .unsubmitted, events, [], []⟩
  /-- A reply came before the call had made its check. -/
  | overtaken {id events r} :
      Heard timeout now told? ⟨some ⟨id, .parked, some r⟩, false, .unsubmitted, events, [r], []⟩
  | dispatching {id job events} : job ≠ .unsubmitted →
      Heard timeout now told? ⟨some ⟨id, .dispatching, none⟩, true, job, events, [], []⟩
  /-- A reply came before the call had heard of the end of its job. -/
  | replied {id job events r} : job ≠ .unsubmitted →
      Heard timeout now told? ⟨some ⟨id, .dispatching, some r⟩, false, job, events, [r], []⟩
  | waiting {id e events time} : e.rejection? = none → told? = some time →
      Heard timeout now told?
        ⟨some ⟨id, .waiting (time + timeout), none⟩, true, .ended e, events, [], []⟩
  /-- The time of the call has run out, and it looks for no reply that is taken from then on. -/
  | leaving {id holds isParked e events time taken} : e.rejection? = none → told? = some time →
      time + timeout ≤ now →
      Heard timeout now told?
        ⟨some ⟨id, .leaving holds, none⟩, isParked, .ended e, events, taken, taken⟩
  | rejected {id early? e events taken missed a} : e.rejection? = some a →
      Heard timeout now told?
        ⟨some ⟨id, .answered a, early?⟩, false, .ended e, events, taken, missed⟩
  | answered {id early? e events a} : e.rejection? = none →
      Heard timeout now told? ⟨some ⟨id, .answered a, early?⟩, false, .ended e, events, [a], []⟩
  | timedOut {id e events time taken} : e.rejection? = none → told? = some time →
      time + timeout ≤ now →
      Heard timeout now told?
        ⟨some ⟨id, .answered .timedOut, none⟩, false, .ended e, events, taken, taken⟩
  | gone {id early? isParked job events taken missed} : job ≠ .unsubmitted →
      Heard timeout now told? ⟨some ⟨id, .gone, early?⟩, isParked, job, events, taken, missed⟩

namespace Heard

variable {timeout now now' : Nat} {told? told?' : Option Nat} {s s' : Standing} {id : String}
  {k : Consumer} {m : Traffic.Move}

/-- Nothing comes of it that time goes by. -/
theorem elapse (h : Heard timeout now told? s) (hnow : now ≤ now') :
    Heard timeout now' told? s := by
  cases h with
  | absent => exact .absent
  | parked => exact .parked
  | overtaken => exact .overtaken
  | dispatching hjob => exact .dispatching hjob
  | replied hjob => exact .replied hjob
  | waiting hr htold => exact .waiting hr htold
  | leaving hr htold hlate => exact .leaving hr htold (Nat.le_trans hlate hnow)
  | rejected hr => exact .rejected hr
  | answered hr => exact .answered hr
  | timedOut hr htold hlate => exact .timedOut hr htold (Nat.le_trans hlate hnow)
  | gone hjob => exact .gone hjob

/-- A call that waits for its job has not been told anything. -/
theorem retold (h : Heard timeout now told? s) (hphase : s.phase? = some .dispatching)
    (told?' : Option Nat) : Heard timeout now told?' s := by
  cases h with
  | dispatching hjob => exact .dispatching hjob
  | replied hjob => exact .replied hjob
  | _ => cases hphase

/-- A job that goes on leaves its call where it is. -/
theorem setJob (h : Heard timeout now told? s) (hs : s.job ≠ .unsubmitted)
    (hended : ∀ e, s.job ≠ .ended e) {j : JobState} (hj : j ≠ .unsubmitted)
    (events : List Event) : Heard timeout now told? { s with job := j, events } := by
  cases h with
  | absent | parked | overtaken => exact absurd rfl hs
  | dispatching => exact .dispatching hj
  | replied => exact .replied hj
  | waiting | leaving | rejected | answered | timedOut => exact absurd rfl (hended _)
  | gone => exact .gone hj

/-- Every step leaves a call in one of these places. -/
theorem step (h : Heard timeout now told? s) (hs : Step id true k s m s')
    (hend : m.isOfEnd = false) (hat : m.IsAt now timeout)
    (htold : ∀ deadline, m = .join id deadline → s.phase? = some .dispatching →
      told? = some now) :
    Heard timeout now told? s' := by
  cases hs with
  | park hnone =>
    cases h with
    | absent => exact .parked
    | _ => cases hnone
  | letIn _ hphase =>
    cases h with
    | parked => exact .dispatching JobState.noConfusion
    | overtaken => exact .replied JobState.noConfusion
    | _ => cases hphase
  | refuse hopen => cases hopen
  | handOver d read hjob =>
    exact h.setJob (by simp [hjob]) (by simp [hjob]) JobState.noConfusion _
  | endJob hjob => exact h.setJob (by simp [hjob]) (by simp [hjob]) JobState.noConfusion _
  | turnAway hjob => exact h.setJob (by simp [hjob]) (by simp [hjob]) JobState.noConfusion _
  | reject deadline hjob hphase hr =>
    cases h with
    | dispatching | replied =>
      cases hjob
      exact .rejected hr
    | _ => cases hphase
  | await deadline hjob hphase hr =>
    have htime := htold deadline rfl hphase
    cases hat
    cases h with
    | dispatching =>
      cases hjob
      exact .waiting hr htime
    | replied =>
      cases hjob
      exact .answered hr
    | _ => cases hphase
  | expire time hphase hdue =>
    cases hat
    cases h with
    | waiting hr htime =>
      cases hphase
      exact .leaving hr htime hdue
    | _ => cases hphase
  | letGo hphase =>
    cases h with
    | leaving hr htime hlate => exact .leaving hr htime hlate
    | _ => cases hphase
  | giveUp hphase =>
    cases h with
    | leaving hr htime hlate => exact .timedOut hr htime hlate
    | _ => cases hphase
  | hangUp hphase =>
    cases h with
    | dispatching hjob | replied hjob => exact .gone hjob
    | waiting => exact .gone JobState.noConfusion
    | _ => simp [phase?] at hphase
  | reply r hparked =>
    cases h with
    | parked => exact .overtaken
    | dispatching hjob => exact .replied hjob
    | waiting hr => exact .answered hr
    | @leaving id holds _ _ _ _ _ hr htime hlate =>
      cases holds with
      | true => exact .leaving hr htime hlate
      | false => exact .leaving hr htime hlate
    | gone hjob => exact .gone hjob
    | _ => cases hparked
  | drain => cases hend

end Heard

end Standing

/-- A call that waits for its job has the reply that was taken for it, if there is one. -/
theorem Standing.Heard.of_dispatching {timeout now : Nat} {told? : Option Nat} {s : Standing}
    (h : s.Heard timeout now told?) (hphase : s.phase? = some .dispatching) :
    ∃ c, s.call? = some c ∧ c.phase = .dispatching ∧ c.early? = s.taken.head? := by
  cases h with
  | dispatching | replied => exact ⟨_, rfl, rfl, rfl⟩
  | _ => cases hphase

/-! ## Calls and jobs -/

/-- Whether a call that stands there has heard how its job has ended, if it was let in. -/
def CallPhase.isTold : CallPhase → Bool
  | .waiting _ | .leaving _ | .answered _ => true
  | .parked | .dispatching | .gone => false

namespace Standing

/-- A call that was let in waits for its job before it waits for a reply, and before it is
answered. -/
def Informed (s : Standing) : Prop :=
  s.phase?.any CallPhase.isTold = true → s.job = .unsubmitted ∨ ∃ e, s.job = .ended e

variable {id : String} {isOpen : Bool} {k : Consumer} {s s' : Standing} {m : Traffic.Move}

/-- A job that goes on has not ended, and so its call has heard nothing. -/
theorem Informed.not_told (h : s.Informed) (hs : s.job ≠ .unsubmitted)
    (hended : ∀ e, s.job ≠ .ended e) : s.phase?.any CallPhase.isTold = false := by
  rw [← Bool.not_eq_true]
  intro htold
  rcases h htold with hjob | ⟨e, hjob⟩
  · exact hs hjob
  · exact hended e hjob

/-- A reply takes no call further than from its waiting to its answer. -/
theorem isTold_of_take {r : Reply} (h : (s.take r).phase?.any CallPhase.isTold = true) :
    s.phase?.any CallPhase.isTold = true := by
  obtain ⟨call?, isParked, job, events, taken, missed⟩ := s
  cases call? with
  | none => cases h
  | some c =>
    obtain ⟨id, phase, early?⟩ := c
    cases phase with
    | waiting | leaving | answered => rfl
    | parked | dispatching | gone => cases h

theorem Step.informed (hs : Step id isOpen k s m s') (hquiet : s.Quiet) (h : s.Informed) :
    s'.Informed := by
  intro htold
  cases hs with
  | park => cases htold
  | letIn _ hphase =>
    obtain ⟨c, hc, -⟩ := Option.map_eq_some_iff.1 hphase
    simp [phase?, alter, hc, CallPhase.isTold] at htold
  | refuse _ hphase => exact .inl (hquiet (.inr hphase)).1
  | handOver _ _ hjob =>
    cases (h.not_told (by simp [hjob]) (by simp [hjob])).symm.trans htold
  | endJob hjob =>
    cases (h.not_told (by simp [hjob]) (by simp [hjob])).symm.trans htold
  | turnAway => exact .inr ⟨_, rfl⟩
  | reject _ hjob | await _ hjob => exact .inr ⟨_, hjob⟩
  | expire _ hphase | letGo hphase | giveUp hphase => exact h (by simp [hphase, CallPhase.isTold])
  | hangUp hphase =>
    have hcall : s.call? ≠ none := by
      rintro hnone
      simp [phase?, hnone] at hphase
    obtain ⟨c, hc⟩ := Option.ne_none_iff_exists'.1 hcall
    simp [phase?, alter, hc, CallPhase.isTold] at htold
  | reply | drain => exact h (isTold_of_take htold)

end Standing

/-! ## Sources that are not stopped -/

namespace Traffic

variable {t u : Traffic} {m : Move} {id : String} {timeout now : Nat} {told? : Option Nat}

/-- An exchange is open until its end begins. -/
def Unstopped (t : Traffic) : Prop :=
  t.record.closing = .notBegun → t.exchange.isOpen = true

theorem unstopped_step (ht : t.Unstopped) (h : t.step? m = some u) : u.Unstopped := by
  intro hclosing
  cases hm : m.isOfEnd with
  | false =>
    obtain ⟨hfront, hsame⟩ := front_step hm h
    have hopen : u.exchange.isOpen = t.exchange.isOpen := congrArg (fun front => front.2.2) hfront
    exact hopen.trans (ht (hsame ▸ hclosing))
  | true =>
    cases endStep_of_step? hm h with
    | close | beginListing | endListing | drain => cases hclosing

/-- A step after which the end of an exchange has not begun is none of the end. -/
theorem isOfEnd_of_notBegun (h : t.step? m = some u) (hclosing : u.record.closing = .notBegun) :
    m.isOfEnd = false ∧ t.record.closing = .notBegun := by
  cases hm : m.isOfEnd with
  | false => exact ⟨rfl, (front_step hm h).2 ▸ hclosing⟩
  | true =>
    cases endStep_of_step? hm h with
    | close | beginListing | endListing | drain => cases hclosing

/-- Every step of traffic that is taken at its time leaves each call in one of the places where it
may be. -/
theorem heard_step (ht : t.Unstopped) (h : t.step? m = some u)
    (hclosing : u.record.closing = .notBegun) (hat : m.IsAt now timeout)
    (htold : ∀ deadline, m = .join id deadline → (t.standing id).phase? = some .dispatching →
      told? = some now)
    (hs : (t.standing id).Heard timeout now told?) : (u.standing id).Heard timeout now told? := by
  obtain ⟨hend, hwas⟩ := isOfEnd_of_notBegun h hclosing
  rcases standing_step h id with he | hstep
  · exact he ▸ hs
  · rw [ht hwas] at hstep
    exact hs.step hstep hend hat htold

end Traffic

namespace Office

variable {mail : Mail} {r s : Office} {m : Move} {moves : List Move} {id : String}

/-- What holds of the calls of a source, as long as nobody stops it. -/
structure Heeds (mail : Mail) (r : Office) : Prop where
  unstopped : r.traffic.Unstopped
  heard : r.traffic.record.closing = .notBegun →
    ∀ id, (r.traffic.standing id).Heard mail.timeout r.now (r.told? id)

theorem heeds_fresh (mail : Mail) (attributes : List String) (k : Consumer) (size : Nat) :
    (fresh attributes k size).Heeds mail :=
  ⟨fun _ => rfl, fun _ _ => .absent⟩

/-- A step of traffic that does not wait for the clock. -/
theorem Heeds.traffic (h : r.Heeds mail) {t : Traffic} {m : Traffic.Move} (hm : m.isTimed = false)
    (ht : r.traffic.step? m = some t) : Heeds mail { r with traffic := t } where
  unstopped := Traffic.unstopped_step h.unstopped ht
  heard hclosing id := by
    have hwas := (Traffic.isOfEnd_of_notBegun ht hclosing).2
    refine Traffic.heard_step h.unstopped ht hclosing (Traffic.Move.isAt_of_isTimed hm _ _) ?_
      (h.heard hwas id)
    rintro deadline rfl
    cases hm

theorem told?_hear (id id' : String) :
    (r.hear id').told? id =
      if id = id' ∧ (r.traffic.standing id').phase? = some .dispatching then some r.now
      else r.told? id := by
  have hphase : (r.traffic.standing id').phase? = some .dispatching ↔
      (r.traffic.exchange.call? id').any Call.isDispatching = true := by
    refine ⟨fun h => ?_, Call.phase_of_isDispatching⟩
    obtain ⟨c, hc, hc'⟩ := Option.map_eq_some_iff.1 h
    change r.traffic.exchange.call? id' = some c at hc
    simp [hc, Call.isDispatching, hc']
  unfold hear
  by_cases hwaits : (r.traffic.exchange.call? id').any Call.isDispatching = true
  · rw [if_pos hwaits]
    by_cases hid : id = id'
    · subst hid
      rw [if_pos ⟨rfl, hphase.2 hwaits⟩]
      exact Function.update_self ..
    · rw [if_neg fun h => hid h.1]
      exact Function.update_of_ne hid ..
  · rw [if_neg hwaits, if_neg fun h => hwaits (hphase.1 h.2)]

/-- A call is told how its job has ended. -/
theorem Heeds.join (h : r.Heeds mail) {t : Traffic} {id' : String}
    (ht : r.traffic.step? (.join id' (r.now + mail.timeout)) = some t) :
    Heeds mail { r.hear id' with traffic := t } where
  unstopped := Traffic.unstopped_step h.unstopped ht
  heard hclosing id := by
    have hwas := (Traffic.isOfEnd_of_notBegun ht hclosing).2
    have hnow : (r.hear id').now = r.now := by
      unfold hear
      split <;> rfl
    show (t.standing id).Heard mail.timeout (r.hear id').now ((r.hear id').told? id)
    rw [hnow, told?_hear]
    refine Traffic.heard_step h.unstopped ht hclosing rfl ?_ ?_
    · rintro deadline hm hphase
      cases hm
      rw [if_pos ⟨rfl, hphase⟩]
    · split
      · rename_i hid
        exact (h.heard hwas id).retold (hid.1 ▸ hid.2) _
      · exact h.heard hwas id

theorem heeds_step (h : r.Heeds mail) (hs : r.step? mail m = some s) : s.Heeds mail := by
  cases step_of_step? hs with
  | traffic _ htimed ht => exact h.traffic htimed ht
  | submit => exact { h with }
  | receive => exact { h with }
  | handOver _ ht => exact { h.traffic rfl ht with }
  | endJob ht => exact { h.traffic rfl ht with }
  | turnAway _ ht => exact h.traffic rfl ht
  | join ht => exact h.join ht
  | @expire id t ht =>
    refine ⟨Traffic.unstopped_step h.unstopped ht, fun hclosing id' => ?_⟩
    have hwas := (Traffic.isOfEnd_of_notBegun ht hclosing).2
    exact Traffic.heard_step h.unstopped ht hclosing rfl
      (fun _ hm => Traffic.Move.noConfusion hm) (h.heard hwas id')
  | elapse time =>
    exact ⟨h.unstopped, fun hclosing id => (h.heard hclosing id).elapse (Nat.le_add_right ..)⟩
  | submitOther => exact { h with }
  | releaseOther => exact { h with }
  | closePool => exact { h with }

end Office

end Correlator
