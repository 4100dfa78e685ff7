import Correlator.Proofs.Exchange.Heard
import Correlator.Proofs.Exchange.Onward

/-!
# Requests that are served

What a request is answered with that was let in, as long as nobody stops the source, and what
there is of it besides: its event and its slot.

* `Office.Answer`: what a request may be answered with, and on which grounds.
* `Office.Kept.ends_of_slot`, `Office.Heeds.exists_join`, `Office.Heeds.exists_reply`,
  `Office.exists_departure`: a request that has its slot can go on to its answer.
* `Office.Served`: all that holds of a request that was let in.
* **`Office.served_of_run`**: over all requests, all bodies and all orders of steps.

The pool may be closed, or filled with other jobs, and bodies may be held up for ever: then there
is no answer, but no wrong one either.
-/

namespace Correlator

/-- Whether the pool has run a job, so that the body was read. -/
def JobState.hasRun : JobState → Bool
  | .ran _ | .ended (.ran _) | .ended .crashed => true
  | .unsubmitted | .submitted | .ended .turnedAway => false

theorem JobState.hasRun_ending (mail : Mail) (k : Consumer) (id : String) :
    (JobState.ended (mail.ending k id)).hasRun = true := by
  unfold Mail.ending Consumer.endOf
  split <;> rfl

namespace Placed

variable {mail : Mail} {k : Consumer} {isOpen : Bool} {id : String} {turn : Turn} {job : JobState}
  {events : List Event} {seat : Seat}

/-- The consumer gets the event of a request, if there is one, when the pool has run its job. -/
theorem events_eq (h : Placed mail k isOpen id turn job events seat) :
    events = if job.hasRun then (mail.event? id).toList else [] := by
  cases h with
  | ended => rw [JobState.hasRun_ending, if_pos rfl]
  | _ => rfl

/-- A job that has ended holds no slot. It has run, or was turned away by a closed pool. -/
theorem of_ended {e : DispatchEnd} (h : Placed mail k isOpen id turn (.ended e) events seat) :
    seat = .away ∧ (e = .turnedAway ∧ isOpen = false ∨ e = mail.ending k id) := by
  cases h with
  | ended => exact ⟨rfl, .inr rfl⟩
  | turnedAway hclosed => exact ⟨rfl, .inl ⟨rfl, hclosed⟩⟩

end Placed

namespace Office

/-- The job of a request has run, and the consumer was given its event and took it. -/
def Took (r : Office) (id : String) : Prop :=
  (r.job id).hasRun = true ∧ r.traffic.eventsOf id ≠ [] ∧
    ∀ e ∈ r.traffic.eventsOf id, r.traffic.exchange.consumer.fails e = false

/-- What a request may be answered with, and on which grounds. -/
inductive Answer (timeout : Nat) (r : Office) (id : String) : Reply → Prop
  /-- Its job has run, and has forwarded nothing. -/
  | bad {a} : (r.job id).hasRun = true → r.traffic.eventsOf id = [] →
      a ∈ [.plain 400 "Empty payload", .plain 400 "Unreadable payload"] → Answer timeout r id a
  /-- The consumer failed on its event. -/
  | failed : (r.job id).hasRun = true →
      (∃ e ∈ r.traffic.eventsOf id, r.traffic.exchange.consumer.fails e = true) →
      Answer timeout r id (.plain 500 "Dispatch failed")
  /-- The pool was closed before its job could run. -/
  | stopped : (r.job id).hasRun = false → r.pool.isOpen = false →
      Answer timeout r id .sourceStopped
  /-- This is the reply that was given for it. -/
  | replied {a} : r.Took id → r.traffic.taken id = [a] → r.traffic.missed id = [] →
      Answer timeout r id a
  /-- No reply was given in time: if one was taken, then when the call had seen that its time had
  run out. -/
  | timedOut {time} : r.Took id → r.traffic.taken id = r.traffic.missed id →
      r.told? id = some time → time + timeout ≤ r.now → Answer timeout r id .timedOut

/-- Whether an answer is the reply that was given in time for a request whose event the consumer
took. -/
def Given (r : Office) (id : String) (a : Reply) : Prop :=
  r.Took id ∧ r.traffic.taken id = [a] ∧ r.traffic.missed id = []

/-! ### Which answer has which grounds -/

variable {mail : Mail} {r s : Office} {moves : List Move} {id : String} {a : Reply}
  {timeout : Nat}

namespace Answer

/-- The source answers with 400 just when the job has run and has forwarded nothing. -/
theorem bad_iff (h : Answer timeout r id a) :
    a.status = 400 ∧ ¬ r.Given id a ↔
      (r.job id).hasRun = true ∧ r.traffic.eventsOf id = [] := by
  cases h with
  | bad hrun hnone ha =>
    refine iff_of_true ⟨?_, fun hgiven => hgiven.1.2.1 hnone⟩ ⟨hrun, hnone⟩
    rcases List.mem_pair.1 ha with rfl | rfl <;> rfl
  | failed _ hfails =>
    obtain ⟨e, he, -⟩ := hfails
    exact iff_of_false (fun h => absurd h.1 (by decide)) fun h => List.ne_nil_of_mem he h.2
  | stopped hrun =>
    exact iff_of_false (fun h => absurd h.1 (by decide)) fun h => by simp [hrun] at h
  | replied htook htaken hmissed =>
    exact iff_of_false (fun h => h.2 ⟨htook, htaken, hmissed⟩) fun h => htook.2.1 h.2
  | timedOut htook => exact iff_of_false (fun h => absurd h.1 (by decide)) fun h => htook.2.1 h.2

/-- The source answers with 500 just when the consumer has failed on the event. -/
theorem failed_iff (h : Answer timeout r id a) :
    a.status = 500 ∧ ¬ r.Given id a ↔ (r.job id).hasRun = true ∧
      ∃ e ∈ r.traffic.eventsOf id, r.traffic.exchange.consumer.fails e = true := by
  -- a consumer that took the event has not failed on it
  have hcalm : r.Took id → ¬ ∃ e ∈ r.traffic.eventsOf id,
      r.traffic.exchange.consumer.fails e = true := by
    rintro htook ⟨e, he, hfails⟩
    cases hfails.symm.trans (htook.2.2 e he)
  cases h with
  | bad _ hnone ha =>
    refine iff_of_false (fun h => ?_) fun h => by simp [hnone] at h
    rcases List.mem_pair.1 ha with rfl | rfl <;> exact absurd h.1 (by decide)
  | failed hrun hfails =>
    exact iff_of_true ⟨rfl, fun hgiven => hcalm hgiven.1 hfails⟩ ⟨hrun, hfails⟩
  | stopped hrun =>
    exact iff_of_false (fun h => absurd h.1 (by decide)) fun h => by simp [hrun] at h
  | replied htook htaken hmissed =>
    exact iff_of_false (fun h => h.2 ⟨htook, htaken, hmissed⟩) fun h => hcalm htook h.2
  | timedOut htook =>
    exact iff_of_false (fun h => absurd h.1 (by decide)) fun h => hcalm htook h.2

/-- The source answers with 503 just when the job could not run. -/
theorem stopped_iff (h : Answer timeout r id a) :
    a.status = 503 ∧ ¬ r.Given id a ↔ (r.job id).hasRun = false ∧ r.pool.isOpen = false := by
  cases h with
  | bad hrun _ ha =>
    refine iff_of_false (fun h => ?_) fun h => by simp [hrun] at h
    rcases List.mem_pair.1 ha with rfl | rfl <;> exact absurd h.1 (by decide)
  | failed hrun =>
    exact iff_of_false (fun h => absurd h.1 (by decide)) fun h => by simp [hrun] at h
  | stopped hrun hclosed =>
    refine iff_of_true ⟨rfl, fun hgiven => ?_⟩ ⟨hrun, hclosed⟩
    cases hrun.symm.trans hgiven.1.1
  | replied htook htaken hmissed =>
    refine iff_of_false (fun h => h.2 ⟨htook, htaken, hmissed⟩) fun h => ?_
    cases htook.1.symm.trans h.1
  | timedOut htook =>
    refine iff_of_false (fun h => absurd h.1 (by decide)) fun h => ?_
    cases htook.1.symm.trans h.1

end Answer

/-! ### Answers and their grounds -/

theorem Kept.placed_of_ended (h : r.Kept mail) {e : DispatchEnd} (hjob : r.job id = .ended e) :
    r.seat id = .away ∧ (e = .turnedAway ∧ r.pool.isOpen = false ∨
      e = mail.ending r.traffic.exchange.consumer id) := by
  have hplaced := h.placed id
  unfold PlacedAt at hplaced
  rw [hjob] at hplaced
  exact hplaced.of_ended

theorem Kept.eventsOf_eq (h : r.Kept mail) (id : String) :
    r.traffic.eventsOf id = if (r.job id).hasRun then (mail.event? id).toList else [] :=
  (h.placed id).events_eq

/-- A job that has run well had its event taken. -/
theorem Kept.took (h : r.Kept mail) {e : DispatchEnd} (hjob : r.job id = .ended e)
    (hr : e.rejection? = none) : r.Took id := by
  obtain ⟨-, ⟨rfl, -⟩ | rfl⟩ := h.placed_of_ended hjob
  · cases hr
  · have hrun : (r.job id).hasRun = true := by
      rw [hjob]
      exact JobState.hasRun_ending ..
    have hevents := h.eventsOf_eq id
    rw [hrun, if_pos rfl] at hevents
    rcases mail.ending_cases r.traffic.exchange.consumer id with
      ⟨-, hne, hending⟩ | ⟨event, hevent, hending⟩
    · rw [hending] at hr
      cases hout : mail.outcome id with
      | forwarded => exact absurd hout hne
      | emptyPayload | readFailed =>
        rw [hout] at hr
        cases hr
    · rw [hending] at hr
      rw [hevent] at hevents
      refine ⟨hrun, by simp [hevents], fun e he => ?_⟩
      obtain rfl : e = event := by simpa [hevents] using he
      cases hfails : r.traffic.exchange.consumer.fails e with
      | false => rfl
      | true =>
        rw [hfails] at hr
        cases hr

/-- A job that was rejected gives the grounds for that. -/
theorem Kept.rejected (h : r.Kept mail) {e : DispatchEnd} (hjob : r.job id = .ended e)
    (hr : e.rejection? = some a) (timeout : Nat) : Answer timeout r id a := by
  obtain ⟨-, ⟨rfl, hclosed⟩ | rfl⟩ := h.placed_of_ended hjob
  · cases hr
    exact .stopped (by rw [hjob]; rfl) hclosed
  · have hrun : (r.job id).hasRun = true := by
      rw [hjob]
      exact JobState.hasRun_ending ..
    have hevents := h.eventsOf_eq id
    rw [hrun, if_pos rfl] at hevents
    rcases mail.ending_cases r.traffic.exchange.consumer id with
      ⟨hnone, hne, hending⟩ | ⟨event, hevent, hending⟩
    · rw [hending] at hr
      rw [hnone] at hevents
      cases hout : mail.outcome id with
      | forwarded => exact absurd hout hne
      | emptyPayload | readFailed =>
        rw [hout] at hr
        cases hr
        exact .bad hrun hevents (by simp)
    · rw [hending] at hr
      rw [hevent] at hevents
      cases hfails : r.traffic.exchange.consumer.fails event with
      | true =>
        rw [hfails] at hr
        cases hr
        exact .failed hrun ⟨event, by simp [hevents], hfails⟩
      | false =>
        rw [hfails] at hr
        cases hr

/-- A request is answered on one of the grounds that there are. -/
theorem answer_of_heard (h : r.Kept mail) (hheeds : r.Heeds mail)
    (hclosing : r.traffic.record.closing = .notBegun) (ha : r.traffic.answer? id = some a) :
    Answer mail.timeout r id a := by
  have hphase := Traffic.phase?_of_answer? ha
  have hheard := hheeds.heard hclosing id
  generalize hs : r.traffic.standing id = s at hphase hheard
  have hjob : r.job id = s.job := congrArg Standing.job hs
  have htaken : r.traffic.taken id = s.taken := congrArg Standing.taken hs
  have hmissed : r.traffic.missed id = s.missed := congrArg Standing.missed hs
  cases hheard with
  | rejected hr =>
    cases hphase
    exact h.rejected hjob hr mail.timeout
  | answered hr =>
    cases hphase
    exact .replied (h.took hjob hr) htaken hmissed
  | timedOut hr htold hlate =>
    cases hphase
    exact .timedOut (h.took hjob hr) (htaken.trans hmissed.symm) htold hlate
  | _ => cases hphase

/-! ## Requests that go on -/

/-- The steps of the job of a request, and of no other one. -/
def ownMoves (id : String) : List Move := [.receive id, .handOver id, .endJob id]

theorem onTraffic_of_step {t : Traffic} {m : Traffic.Move} (h : r.traffic.step? m = some t) :
    r.onTraffic m = some { r with traffic := t } := by
  unfold onTraffic
  rw [h]
  rfl

theorem step?_traffic {t : Traffic} {m : Traffic.Move} (hjob : m.isOfJob = false)
    (htimed : m.isTimed = false) (h : r.traffic.step? m = some t) :
    r.step? mail (.traffic m) = some { r with traffic := t } :=
  (if_pos ⟨hjob, htimed⟩).trans (onTraffic_of_step h)

/-- A run of steps that do not wait for the clock, and that no job takes. -/
theorem run?_traffic {ms : List Traffic.Move} {t : Traffic}
    (hms : ∀ m ∈ ms, m.isOfJob = false ∧ m.isTimed = false) (h : r.traffic.run? ms = some t) :
    r.run? mail (ms.map .traffic) = some { r with traffic := t } := by
  induction ms generalizing r with
  | nil =>
    cases h
    rfl
  | cons m ms ih =>
    obtain ⟨⟨hjob, htimed⟩, hms⟩ := List.forall_mem_cons.1 hms
    obtain ⟨u, hu, hrest⟩ := Option.bind_eq_some_iff.1 (List.foldlM_cons.symm.trans h)
    exact (foldlM_cons_of_step (step?_traffic hjob htimed hu)).trans
      (ih (r := { r with traffic := u }) hms hrest)

/-- A job that has handed its event over can end. -/
theorem Kept.exists_endJob (h : r.Kept mail) {outcome : DispatchOutcome}
    (hjob : r.job id = .ran outcome) :
    ∃ s, r.step? mail (.endJob id) = some s ∧
      s.job id = .ended (mail.ending r.traffic.exchange.consumer id) := by
  have hplaced := h.placed id
  unfold PlacedAt at hplaced
  rw [hjob] at hplaced
  obtain ⟨-, rfl, hevents, -⟩ := hplaced.of_ran
  have hstep := Traffic.step?_endJob (t := r.traffic) hjob
  rw [Mail.ending_of_events hevents] at hstep
  exact ⟨_, onTraffic_of_step (r := r.free mail (.own id)) hstep, Function.update_self ..⟩

theorem exists_handOver (hturn : r.turn id = .read (mail.payload id))
    (hjob : r.job id = .submitted) :
    ∃ s, r.step? mail (.handOver id) = some s ∧ s.job id = .ran (mail.outcome id) ∧
      s.traffic.exchange = r.traffic.exchange := by
  change r.traffic.record.job id = _ at hjob
  simp only [step?, hturn, onTraffic, setTurn, Traffic.step?, hjob, if_true, Option.map_some]
  exact ⟨_, rfl, Function.update_self .., rfl⟩

theorem exists_receive (mail : Mail) {i : Intake} {rest : Body}
    (hturn : r.turn id = .reading i rest) :
    ∃ s, r.step? mail (.receive id) = some s ∧ s.turn id = .next i rest ∧
      s.traffic = r.traffic := by
  simp only [step?, hturn]
  exact ⟨_, rfl, Function.update_self .., rfl⟩

/-- A job whose body has come to its end goes on to its own end. -/
theorem Kept.ends_of_read (h : r.Kept mail) (hturn : r.turn id = .read (mail.payload id))
    (hjob : r.job id = .submitted) :
    ∃ moves s, moves ⊆ ownMoves id ∧ r.run? mail moves = some s ∧
      s.job id = .ended (mail.ending r.traffic.exchange.consumer id) := by
  obtain ⟨v, hv, hran, hexchange⟩ := exists_handOver hturn hjob
  obtain ⟨s, hs, hended⟩ := (kept_step h hv).exists_endJob hran
  refine ⟨[.handOver id, .endJob id], s, by simp [ownMoves],
    (foldlM_cons_of_step hv).trans (foldlM_cons_of_step hs), ?_⟩
  rw [hended, hexchange]

/-- A job that takes its body in goes on to its end as the pieces arrive. -/
theorem Kept.ends_of_reading (h : r.Kept mail) {i : Intake} {rest : Body}
    (hturn : r.turn id = .reading i rest) (hreads : i.reads rest = mail.payload id)
    (hjob : r.job id = .submitted) :
    ∃ moves s, moves ⊆ ownMoves id ∧ r.run? mail moves = some s ∧
      s.job id = .ended (mail.ending r.traffic.exchange.consumer id) := by
  induction hn : rest.length using Nat.strongRecOn generalizing r i rest with
  | ind n ih =>
    subst hn
    obtain ⟨v, hv, hnext, htraffic⟩ := exists_receive mail hturn
    have hkept := kept_step h hv
    have hjob' : v.job id = .submitted := by
      unfold job
      rw [htraffic]
      exact hjob
    have hrest : ∃ moves s, moves ⊆ ownMoves id ∧ v.run? mail moves = some s ∧
        s.job id = .ended (mail.ending v.traffic.exchange.consumer id) := by
      rcases Turn.next_cases i rest with he | ⟨i', piece, rest', rfl, he, hreads'⟩
      · rw [he, hreads] at hnext
        exact hkept.ends_of_read hnext hjob'
      · rw [he] at hnext
        exact ih rest'.length (Nat.lt_succ_self _) hkept hnext (hreads'.trans hreads) hjob' rfl
    obtain ⟨moves, s, hmoves, hrun, hended⟩ := hrest
    refine ⟨.receive id :: moves, s, ?_, (foldlM_cons_of_step hv).trans hrun, ?_⟩
    · exact List.cons_subset.2 ⟨by simp [ownMoves], hmoves⟩
    · rw [hended, htraffic]

/-- **A job that has got its slot can go on to its end by its own steps alone.** -/
theorem Kept.ends_of_slot (h : r.Kept mail) (hslot : r.seat id = .slot) :
    ∃ moves s, moves ⊆ ownMoves id ∧ r.run? mail moves = some s ∧
      s.job id = .ended (mail.ending r.traffic.exchange.consumer id) := by
  have hplaced := h.placed id
  unfold PlacedAt at hplaced
  rw [hslot] at hplaced
  generalize hturn : r.turn id = turn at hplaced
  generalize hjob : r.job id = job at hplaced
  generalize r.traffic.eventsOf id = events at hplaced
  cases hplaced with
  | reading hreads => exact h.ends_of_reading hturn hreads hjob
  | read => exact h.ends_of_read hturn hjob
  | handed =>
    obtain ⟨s, hs, hended⟩ := h.exists_endJob hjob
    exact ⟨[.endJob id], s, by simp [ownMoves], foldlM_cons_of_step hs, hended⟩

/-- What a call is answered with as soon as it hears how its job has ended, if it is not to wait. -/
def due? (r : Office) (id : String) (e : DispatchEnd) : Option Reply :=
  e.rejection?.or (r.traffic.taken id).head?

/-- Where a call stands once it has heard how its job has ended. -/
def heardPhase (timeout : Nat) (r : Office) (id : String) (e : DispatchEnd) : CallPhase :=
  match r.due? id e with
  | some a => .answered a
  | none => .waiting (r.now + timeout)

/-- A call whose job has ended can be told so. Then it is answered, or its time begins. -/
theorem Heeds.exists_join (h : r.Heeds mail) (hclosing : r.traffic.record.closing = .notBegun)
    {e : DispatchEnd} (hjob : r.job id = .ended e)
    (hphase : (r.traffic.standing id).phase? = some .dispatching) :
    ∃ s, r.step? mail (.join id) = some s ∧
      (s.traffic.standing id).phase? = some (r.heardPhase mail.timeout id e) := by
  obtain ⟨c, hc, hc', hearly⟩ := (h.heard hclosing id).of_dispatching hphase
  have hjoined := Exchange.phase_joined hc hc' e (r.now + mail.timeout)
  rw [hearly] at hjoined
  change r.traffic.record.job id = .ended e at hjob
  have ht : (r.hear id).traffic.step? (.join id (r.now + mail.timeout)) =
      some { r.traffic with
        exchange := r.traffic.exchange.joined id e (r.now + mail.timeout) } := by
    rw [traffic_hear]
    simp [Traffic.step?, hjob]
  exact ⟨_, onTraffic_of_step ht, hjoined⟩

/-- A call that waits takes the reply that is given for it. -/
theorem Heeds.exists_reply (h : r.Heeds mail) (hclosing : r.traffic.record.closing = .notBegun)
    {deadline : Nat} (hphase : (r.traffic.standing id).phase? = some (.waiting deadline))
    (a : Reply) :
    ∃ s, r.step? mail (.traffic (.reply id a)) = some s ∧ s.traffic.answer? id = some a := by
  have hparked : id ∈ r.traffic.exchange.parked := by
    have hheard := h.heard hclosing id
    rw [← Exchange.isParked_iff]
    show (r.traffic.standing id).isParked = true
    generalize r.traffic.standing id = s at hphase hheard
    cases hheard with
    | waiting => rfl
    | _ => cases hphase
  obtain ⟨u, hu, hanswer, -⟩ := Traffic.exists_reply hparked hphase a
  exact ⟨_, step?_traffic rfl rfl hu, hanswer⟩

/-- The steps of a call whose time has run out. -/
def departure (id : String) : List Move :=
  [.expire id, .traffic (.letGo id), .traffic (.giveUp id)]

/-- A call that waits is answered when its time has run out. -/
theorem exists_departure (mail : Mail) {deadline : Nat}
    (hphase : (r.traffic.standing id).phase? = some (.waiting deadline))
    (hdue : deadline ≤ r.now) :
    ∃ s, r.run? mail (departure id) = some s ∧ s.traffic.answer? id = some .timedOut := by
  obtain ⟨u, hu, hanswer, -⟩ := Traffic.exists_departure hphase hdue
  obtain ⟨t, ht, hrest⟩ := Option.bind_eq_some_iff.1 (List.foldlM_cons.symm.trans hu)
  have hexpire : r.step? mail (.expire id) = some { r with traffic := t } := onTraffic_of_step ht
  have hsteps : ∀ m ∈ [Traffic.Move.letGo id, .giveUp id],
      m.isOfJob = false ∧ m.isTimed = false := by
    simp [Traffic.Move.isOfJob, Traffic.Move.isTimed]
  exact ⟨_, (foldlM_cons_of_step hexpire).trans (run?_traffic hsteps hrest), hanswer⟩

/-- A call that leaves goes on to its answer by its own steps. -/
theorem exists_giveUp (mail : Mail) {holds : Bool}
    (hphase : (r.traffic.standing id).phase? = some (.leaving holds)) :
    ∃ moves s, moves ⊆ departure id ∧ r.run? mail moves = some s ∧
      s.traffic.answer? id = some .timedOut := by
  obtain ⟨ms, u, hms, hu, -, hanswer, -⟩ := Traffic.exists_giveUp hphase
  refine ⟨ms.map .traffic, _, fun m hm => ?_, run?_traffic (fun m hm => ?_) hu, hanswer⟩
  · obtain ⟨m', hm', rfl⟩ := List.mem_map.1 hm
    rcases List.mem_pair.1 (hms hm') with rfl | rfl <;> simp [departure]
  · rcases List.mem_pair.1 (hms hm) with rfl | rfl <;> exact ⟨rfl, rfl⟩

/-! ## All that holds of a request -/

/-- What holds of all traffic holds at a source at work. -/
theorem traffic_induction {P : Traffic → Prop}
    (hstep : ∀ {t : Traffic} {m : Traffic.Move} {u : Traffic}, P t → t.step? m = some u → P u)
    (h : P r.traffic) (hs : r.run? mail moves = some s) : P s.traffic := by
  refine foldlM_induction (P := fun r => P r.traffic) ?_ h hs
  intro r m s h hs
  cases step_of_step? hs with
  | traffic _ _ ht | handOver _ ht | endJob ht | turnAway _ ht | join ht | expire ht =>
    exact hstep h ht
  | submit | receive | elapse | submitOther | releaseOther | closePool => exact h

/-- All that holds of a request that was let in. -/
structure Served (mail : Mail) (r : Office) (id : String) : Prop where
  /-- There is one event if the pool has run the job and the body makes one, and none otherwise. -/
  event : r.traffic.eventsOf id = if (r.job id).hasRun then (mail.event? id).toList else []
  /-- A job that has got a slot can go on to its end. -/
  ends : r.seat id = .slot → ∃ moves s, moves ⊆ ownMoves id ∧ r.run? mail moves = some s ∧
    s.job id = .ended (mail.ending r.traffic.exchange.consumer id)
  /-- A request that was answered is parked no longer, and its job has given its slot back. -/
  cleared : ∀ a, r.traffic.answer? id = some a →
    id ∉ r.traffic.exchange.parked ∧ r.seat id = .away
  /-- As long as nobody stops the source, there are grounds for the answer. -/
  answer : r.traffic.record.closing = .notBegun → ∀ a, r.traffic.answer? id = some a →
    Answer mail.timeout r id a
  /-- The source itself answers with 400 just when the job ran and forwarded nothing. -/
  bad : r.traffic.record.closing = .notBegun → ∀ a, r.traffic.answer? id = some a →
    (a.status = 400 ∧ ¬ r.Given id a ↔ (r.job id).hasRun = true ∧ r.traffic.eventsOf id = [])
  /-- It answers with 500 just when the consumer failed on the event. -/
  failed : r.traffic.record.closing = .notBegun → ∀ a, r.traffic.answer? id = some a →
    (a.status = 500 ∧ ¬ r.Given id a ↔ (r.job id).hasRun = true ∧
      ∃ e ∈ r.traffic.eventsOf id, r.traffic.exchange.consumer.fails e = true)
  /-- It answers with 503 just when the pool was closed before the job ran. -/
  stopped : r.traffic.record.closing = .notBegun → ∀ a, r.traffic.answer? id = some a →
    (a.status = 503 ∧ ¬ r.Given id a ↔ (r.job id).hasRun = false ∧ r.pool.isOpen = false)
  /-- A call whose job has ended goes on to its answer, or to wait for it. -/
  hears : r.traffic.record.closing = .notBegun → ∀ e, r.job id = .ended e →
    (r.traffic.standing id).phase? = some .dispatching →
    ∃ s, r.step? mail (.join id) = some s ∧
      (s.traffic.standing id).phase? = some (r.heardPhase mail.timeout id e)
  /-- A call that waits goes on to any reply that is given for it, and to 504 in the end. -/
  waits : r.traffic.record.closing = .notBegun → ∀ deadline,
    (r.traffic.standing id).phase? = some (.waiting deadline) →
    (∀ a, ∃ s, r.step? mail (.traffic (.reply id a)) = some s ∧
      s.traffic.answer? id = some a) ∧
    (deadline ≤ r.now →
      ∃ s, r.run? mail (departure id) = some s ∧ s.traffic.answer? id = some .timedOut)
  /-- A call that leaves goes on to 504. -/
  leaves : ∀ holds, (r.traffic.standing id).phase? = some (.leaving holds) →
    ∃ moves s, moves ⊆ departure id ∧ r.run? mail moves = some s ∧
      s.traffic.answer? id = some .timedOut

variable {attributes : List String} {k : Consumer} {size : Nat}

/-- What holds of all traffic besides. -/
theorem attended_run (hrun : (fresh attributes k size).run? mail moves = some r) (id : String) :
    ((r.traffic.standing id).isParked = true → (r.traffic.standing id).Parked) ∧
      (r.traffic.standing id).Informed := by
  have h : r.traffic.Tidy ∧ r.traffic.Attended ∧ ∀ id, (r.traffic.standing id).Informed := by
    refine traffic_induction (P := fun t =>
      t.Tidy ∧ t.Attended ∧ ∀ id, (t.standing id).Informed) ?_ ?_ hrun
    · rintro t m u ⟨htidy, hattended, hinformed⟩ hstep
      refine ⟨Traffic.tidy_step htidy hstep, Traffic.attended_step htidy hattended hstep,
        fun id => ?_⟩
      rcases Traffic.standing_step hstep id with he | hs
      · exact he ▸ hinformed id
      · exact hs.informed (htidy.2 id) (hinformed id)
    · exact ⟨Traffic.tidy_fresh attributes k, Traffic.attended_fresh attributes k, nofun⟩
  exact ⟨h.2.1 id, h.2.2 id⟩

/-- A request that was let in and answered is parked no longer, and its job has ended. -/
theorem cleared_of_answer (hrun : (fresh attributes k size).run? mail moves = some r)
    (hlet : r.job id ≠ .unsubmitted) (ha : r.traffic.answer? id = some a) :
    id ∉ r.traffic.exchange.parked ∧ ∃ e, r.job id = .ended e := by
  have hphase := Traffic.phase?_of_answer? ha
  obtain ⟨hparked, hinformed⟩ := attended_run hrun id
  constructor
  · intro hmem
    cases hparked ((Exchange.isParked_iff _ _).2 hmem) with
    | checking _ hc | dispatching _ hc | waiting _ _ hc | leaving _ _ hc | gone _ hc =>
      simp [Standing.phase?, hc] at hphase
  · have htold : (r.traffic.standing id).phase?.any CallPhase.isTold = true := by
      simp [hphase, CallPhase.isTold]
    exact (hinformed htold).resolve_left hlet

/-- **What becomes of a request that was let in.** Whatever its body is and however it arrives,
whoever replies and whatever else the pool does: the consumer gets one event just when the pool
runs the job and the body makes one. If nobody stops the source, the request is answered with 400
just when its job ran and forwarded nothing, with 500 just when the consumer failed, with 503 just
when the pool was closed before the job ran, and otherwise with the reply that is given for it or,
after its time, with 504. Once it is answered, it is parked no longer and its slot is free. -/
theorem served_of_run (hrun : (fresh attributes k size).run? mail moves = some r)
    (hlet : r.job id ≠ .unsubmitted) : r.Served mail id := by
  have hkept := kept_run (kept_fresh mail attributes k size) hrun
  have hheeds : r.Heeds mail :=
    foldlM_induction heeds_step (heeds_fresh mail attributes k size) hrun
  have hanswer : r.traffic.record.closing = .notBegun → ∀ a, r.traffic.answer? id = some a →
      Answer mail.timeout r id a := fun hclosing _ ha => answer_of_heard hkept hheeds hclosing ha
  exact {
    event := hkept.eventsOf_eq id
    ends := hkept.ends_of_slot
    cleared := fun a ha => by
      obtain ⟨hparked, e, hended⟩ := cleared_of_answer hrun hlet ha
      exact ⟨hparked, (hkept.placed_of_ended hended).1⟩
    answer := hanswer
    bad := fun hclosing a ha => (hanswer hclosing a ha).bad_iff
    failed := fun hclosing a ha => (hanswer hclosing a ha).failed_iff
    stopped := fun hclosing a ha => (hanswer hclosing a ha).stopped_iff
    hears := fun hclosing _ hjob hphase => hheeds.exists_join hclosing hjob hphase
    waits := fun hclosing _ hphase => ⟨hheeds.exists_reply hclosing hphase,
      exists_departure mail hphase⟩
    leaves := fun _ => exists_giveUp mail }

/-- Two requests for one slot: the body of the first one is held up on its way, and that of the
second one is too long. -/
def rushMail : Mail where
  limit := 5
  timeout := 30
  dispatch _ := ⟨[], .empty, default, []⟩
  body id :=
    if id = "a" then [.chunk (.ofString "hel"), .gate "g", .chunk (.ofString "lo")]
    else [.chunk (.ofString "far too long")]

/-- The second request waits in line while the first one is read and replied to. -/
def rush : List Move :=
  [.traffic (.park "a"), .traffic (.checkOpen "a"), .submit "a", .traffic (.park "b"),
    .traffic (.checkOpen "b"), .submit "b", .receive "a", .receive "a", .receive "a", .receive "a",
    .handOver "a", .traffic (.reply "a" (.plain 200 "done")), .endJob "a", .join "a",
    .receive "b", .handOver "b", .endJob "b", .join "b"]

/-- The first request is answered with the reply for its event, and the second one with 400. -/
theorem served_of_run_rush :
    ∃ r, (fresh [] (.steady "desk") 1).run? rushMail rush = some r ∧
      r.Served rushMail "a" ∧ r.Served rushMail "b" ∧
      (r.traffic.eventsOf "a").map Event.payload = ["hello"] ∧
      r.traffic.answer? "a" = some (.plain 200 "done") ∧ r.traffic.eventsOf "b" = [] ∧
      r.traffic.answer? "b" = some (.plain 400 "Unreadable payload") := by
  have hend : ((fresh [] (.steady "desk") 1).run? rushMail rush).map (fun r =>
      ((r.job "a").hasRun && (r.job "b").hasRun, (r.traffic.eventsOf "a").map Event.payload,
        (r.traffic.eventsOf "b").isEmpty, r.traffic.answer? "a", r.traffic.answer? "b")) =
      some (true, ["hello"], true, some (.plain 200 "done"),
        some (.plain 400 "Unreadable payload")) := by
    decide +kernel
  obtain ⟨r, hrun, hr⟩ := Option.map_eq_some_iff.1 hend
  simp only [Prod.mk.injEq, Bool.and_eq_true, List.isEmpty_iff] at hr
  obtain ⟨⟨hran, hran'⟩, hevents, hevents', hanswer, hanswer'⟩ := hr
  have hlet : r.job "a" ≠ .unsubmitted := fun h => by simp [h, JobState.hasRun] at hran
  have hlet' : r.job "b" ≠ .unsubmitted := fun h => by simp [h, JobState.hasRun] at hran'
  exact ⟨r, hrun, served_of_run hrun hlet, served_of_run hrun hlet', hevents, hanswer, hevents',
    hanswer'⟩

end Office

end Correlator
