import Correlator.Proofs.Exchange.Onward

/-!
# Requests and their answers

Replies, timers, jobs and the end of an exchange may come in any order, and some of them for the
same request. A request is answered with the reply that was taken for it, or by the exchange itself,
and then no reply was taken, but for one case: a reply that is sent between the moment at which a
call sees that its time has run out and the moment at which it lets go of its end is taken, and
nobody looks at it.

* `Traffic.orderly`: who replies knows the id from an event, and nobody hangs up.
* `Reply.Origin`: where an answer comes from, by the replies that were taken and missed.
* `Standing.Course`: the courses that a request may take. A reply may come before the call has
  heard of the end of its job, and the end of the exchange before the call has made its check.
* `Standing.Course.step`: a step leads from one of them to another one.
* `Traffic.Settles`: how a request comes to its answer, and what that is.
* **`Traffic.settles_of_run`**: over all requests and all orders of their steps.
* `Traffic.taken_and_timedOut`: a reply that is taken, and a request that is answered otherwise.
-/

namespace Correlator

/-! ## Replies of the exchange itself -/

/-- The replies of an exchange whose consumer does not fail. -/
def Exchange.ownReplies : List Reply :=
  [.plain 400 "Empty payload", .plain 400 "Unreadable payload", .sourceStopped, .timedOut]

theorem DispatchEnd.mem_ownReplies {e : DispatchEnd} {r : Reply} (h : e.rejection? = some r)
    (he : e ≠ .crashed) : r ∈ Exchange.ownReplies := by
  unfold rejection? at h
  split at h
  · cases h
  · cases h
    simp [Exchange.ownReplies]
  · cases h
    simp [Exchange.ownReplies]
  · exact absurd rfl he
  · cases h
    simp [Exchange.ownReplies]

namespace Traffic

/-! ## Orderly traffic -/

/-- Nobody replies before there is an event with the id, and nobody hangs up. -/
def orderly (t : Traffic) : Move → Bool
  | .reply id _ => !(t.eventsOf id).isEmpty
  | .hangUp _ => false
  | _ => true

/-- One step in orderly traffic. -/
def orderlyStep? (t : Traffic) (m : Move) : Option Traffic :=
  if t.orderly m then t.step? m else none

/-- A run of steps in orderly traffic. -/
def orderlyRun? (t : Traffic) (moves : List Move) : Option Traffic := moves.foldlM orderlyStep? t

end Traffic

/-- Where the answer of a request comes from, by the replies that were taken for it and by those of
them that were missed. -/
inductive Reply.Origin (a : Reply) : List Reply → List Reply → Prop
  /-- It is the reply that was taken. -/
  | taken : Origin a [a] []
  /-- The exchange answers itself, and no reply was taken. -/
  | own : a ∈ Exchange.ownReplies → Origin a [] []
  /-- A reply was taken when the call looked for none any more. -/
  | missed (r : Reply) : a = .timedOut → Origin a [r] [r]

namespace Standing

/-! ## The course of a request -/

/-- The courses of a request. An id that is parked has no reply; once it is taken out, its call has
the reply that it was taken out for, or leaves, or was answered. -/
inductive Course : Standing → Prop
  | absent {events} : Course ⟨none, false, .unsubmitted, events, [], []⟩
  | parked {id events} : Course ⟨some ⟨id, .parked, none⟩, true, .unsubmitted, events, [], []⟩
  /-- The exchange was drained before the check. -/
  | stopped {id events} :
      Course ⟨some ⟨id, .parked, some .sourceStopped⟩, false, .unsubmitted, events, [], []⟩
  | dispatching {id job events} : Course ⟨some ⟨id, .dispatching, none⟩, true, job, events, [], []⟩
  /-- The exchange was drained before the end of the job. -/
  | released {id job events} :
      Course ⟨some ⟨id, .dispatching, some .sourceStopped⟩, false, job, events, [], []⟩
  /-- A reply came before the call had heard of the end of its job. -/
  | replied {id job events r} : job.hasForwarded = true →
      Course ⟨some ⟨id, .dispatching, some r⟩, false, job, events, [r], []⟩
  | waiting {id deadline job events} :
      Course ⟨some ⟨id, .waiting deadline, none⟩, true, job, events, [], []⟩
  | leaving {id holds job events} :
      Course ⟨some ⟨id, .leaving holds, none⟩, true, job, events, [], []⟩
  /-- The id was taken out while its call was leaving, be it for a reply or by the drain. -/
  | overtaken {id holds job events taken} : taken = [] ∨ (∃ r, taken = [r]) →
      Course ⟨some ⟨id, .leaving holds, none⟩, false, job, events, taken, taken⟩
  | answered {id a early? job events taken missed} : Reply.Origin a taken missed →
      Course ⟨some ⟨id, .answered a, early?⟩, false, job, events, taken, missed⟩

/-- What holds of every id in orderly traffic. -/
structure Sound (s : Standing) : Prop where
  course : s.Course
  not_crashed : s.job ≠ .ended .crashed
  forwarded : s.events ≠ [] → s.job.hasForwarded = true

variable {id : String} {isOpen : Bool} {k : Consumer} {s s' : Standing} {m : Traffic.Move}

/-- A job that goes on leaves its call where it is. -/
theorem Course.setJob (h : s.Course) (hs : s.job ≠ .unsubmitted) {j : JobState}
    (hj : s.job.hasForwarded = true → j.hasForwarded = true) (events : List Event) :
    Course { s with job := j, events } := by
  cases h with
  | absent | parked | stopped => exact absurd rfl hs
  | dispatching => exact .dispatching
  | released => exact .released
  | replied hforwarded => exact .replied (hj hforwarded)
  | waiting => exact .waiting
  | leaving => exact .leaving
  | overtaken htaken => exact .overtaken htaken
  | answered horigin => exact .answered horigin

theorem Course.step (h : s.Course) (hjob : s.job ≠ .ended .crashed) (hk : ∀ e, k.fails e = false)
    (hreply : ∀ r, m = .reply id r → s.job.hasForwarded = true) (hhang : m ≠ .hangUp id)
    (hs : Step id isOpen k s m s') : s'.Course := by
  cases hs with
  | park hnone =>
    cases h with
    | absent => exact .parked
    | _ => cases hnone
  | letIn _ hphase =>
    cases h with
    | parked => exact .dispatching
    | stopped => exact .released
    | _ => cases hphase
  | refuse _ hphase =>
    cases h with
    | parked | stopped => exact .answered (.own (by simp [Exchange.ownReplies]))
    | _ => cases hphase
  | handOver d read hsubmitted =>
    exact h.setJob (by simp [hsubmitted]) (by simp [hsubmitted, JobState.hasForwarded]) _
  | endJob hran =>
    refine h.setJob (by simp [hran]) ?_ _
    simp [hran, JobState.hasForwarded, Consumer.endOf_steady hk]
  | turnAway hsubmitted =>
    exact h.setJob (by simp [hsubmitted]) (by simp [hsubmitted, JobState.hasForwarded]) _
  | @reject e r deadline hended hphase hr =>
    have hown := DispatchEnd.mem_ownReplies hr fun he => hjob (hended.trans (congrArg _ he))
    cases h with
    | dispatching | released => exact .answered (.own hown)
    | replied hforwarded =>
      -- a job that has handed its event over is not rejected
      cases hended
      have he : e = .ran .forwarded := by simpa [JobState.hasForwarded] using hforwarded
      subst he
      cases hr
    | _ => cases hphase
  | await deadline hended hphase hr =>
    cases h with
    | dispatching => exact .waiting
    | released => exact .answered (.own (by simp [Exchange.ownReplies]))
    | replied => exact .answered .taken
    | _ => cases hphase
  | expire now hphase =>
    cases h with
    | waiting => exact .leaving
    | _ => cases hphase
  | letGo hphase =>
    cases h with
    | leaving => exact .leaving
    | overtaken htaken => exact .overtaken htaken
    | _ => cases hphase
  | giveUp hphase =>
    cases h with
    | leaving => exact .answered (.own (by simp [Exchange.ownReplies]))
    | overtaken htaken =>
      rcases htaken with rfl | ⟨r, rfl⟩
      · exact .answered (.own (by simp [Exchange.ownReplies]))
      · exact .answered (.missed r rfl)
    | _ => cases hphase
  | hangUp => exact absurd rfl hhang
  | reply r hparked =>
    have hforwarded := hreply r rfl
    cases h with
    | parked => cases hforwarded
    | dispatching => exact .replied hforwarded
    | waiting => exact .answered .taken
    | @leaving id holds =>
      cases holds with
      | true => exact .overtaken (.inr ⟨r, rfl⟩)
      | false => exact .overtaken (.inl rfl)
    | _ => cases hparked
  | drain hparked =>
    cases h with
    | parked => exact .stopped
    | dispatching => exact .released
    | waiting => exact .answered (.own (by simp [Exchange.ownReplies]))
    | leaving => exact .overtaken (.inl rfl)
    | _ => cases hparked

theorem Sound.step (h : s.Sound) (hk : ∀ e, k.fails e = false)
    (hreply : ∀ r, m = .reply id r → s.events ≠ []) (hhang : m ≠ .hangUp id)
    (hs : Step id isOpen k s m s') : s'.Sound where
  course := h.course.step h.not_crashed hk (fun r hr => h.forwarded (hreply r hr)) hhang hs
  not_crashed := by
    cases hs with
    | letIn => exact JobState.noConfusion
    | handOver => exact JobState.noConfusion
    | endJob => simp [Consumer.endOf_steady hk]
    | turnAway => simp
    | _ => exact h.not_crashed
  forwarded := by
    intro hevents
    cases hs with
    | letIn _ hphase =>
      obtain ⟨hcourse, -, hforwarded⟩ := h
      cases hcourse with
      | parked | stopped => cases hforwarded hevents
      | _ => cases hphase
    | handOver d read hsubmitted =>
      have hnone : s.events = [] := by
        by_contra hne
        have hforwarded := h.forwarded hne
        rw [hsubmitted] at hforwarded
        cases hforwarded
      have hevent : (d.conclude read).2.1 ≠ none := by
        intro he
        simp [hnone, he] at hevents
      simp [JobState.hasForwarded, (Dispatch.conclude_eq_forwarded d read).2 hevent]
    | endJob hran =>
      have hforwarded := h.forwarded hevents
      rw [hran] at hforwarded
      simpa [JobState.hasForwarded, Consumer.endOf_steady hk] using hforwarded
    | turnAway hsubmitted =>
      have hforwarded := h.forwarded hevents
      rw [hsubmitted] at hforwarded
      cases hforwarded
    | _ => exact h.forwarded hevents

/-! ## What the course of a request says -/

/-- At most one reply is taken for an id, and once it was the id is parked no longer. -/
theorem Course.taken_cases (h : s.Course) :
    s.taken = [] ∧ s.missed = [] ∨
      s.isParked = false ∧ ∃ r, s.taken = [r] ∧ (s.missed = [] ∨ s.missed = [r]) := by
  cases h with
  | replied => exact .inr ⟨rfl, _, rfl, .inl rfl⟩
  | overtaken htaken =>
    rcases htaken with rfl | ⟨r, rfl⟩
    · exact .inl ⟨rfl, rfl⟩
    · exact .inr ⟨rfl, r, rfl, .inr rfl⟩
  | answered horigin =>
    cases horigin with
    | taken => exact .inr ⟨rfl, _, rfl, .inl rfl⟩
    | own => exact .inl ⟨rfl, rfl⟩
    | missed r => exact .inr ⟨rfl, r, rfl, .inr rfl⟩
  | _ => exact .inl ⟨rfl, rfl⟩

/-- A request that was answered is parked no longer, and was answered as it should be. -/
theorem Course.answered_origin (h : s.Course) {a : Reply} (ha : s.phase? = some (.answered a)) :
    s.isParked = false ∧ a.Origin s.taken s.missed := by
  cases h with
  | answered horigin =>
    cases ha
    exact ⟨rfl, horigin⟩
  | _ => cases ha

/-- A reply that was taken and not missed is the answer, or waits for the end of the job. -/
theorem Course.of_taken (h : s.Course) {r : Reply} (htaken : s.taken = [r])
    (hmissed : s.missed = []) :
    s.phase? = some (.answered r) ∨
      s.job.hasForwarded = true ∧ ∃ c, s.call? = some c ∧ c.phase = .dispatching ∧
        c.early? = some r := by
  cases h with
  | replied hforwarded =>
    cases htaken
    exact .inr ⟨hforwarded, _, rfl, rfl, rfl⟩
  | overtaken => cases hmissed.symm.trans htaken
  | answered horigin =>
    cases horigin with
    | taken =>
      cases htaken
      exact .inl rfl
    | own => cases htaken
    | missed => cases hmissed
  | _ => cases htaken

/-- A call that has missed a reply leaves, or was answered that its time had run out. -/
theorem Course.of_missed (h : s.Course) (hmissed : s.missed ≠ []) :
    (∃ holds, s.phase? = some (.leaving holds)) ∨ s.phase? = some (.answered .timedOut) := by
  cases h with
  | overtaken => exact .inl ⟨_, rfl⟩
  | answered horigin =>
    cases horigin with
    | taken | own => exact absurd rfl hmissed
    | missed r ha =>
      subst ha
      exact .inr rfl
  | _ => exact absurd rfl hmissed

/-- Whoever waits is parked. -/
theorem Course.isParked_of_waiting (h : s.Course) {deadline : Nat}
    (hphase : s.phase? = some (.waiting deadline)) : s.isParked = true := by
  cases h with
  | waiting => rfl
  | _ => cases hphase

/-- Once a reply was taken, no other one is. -/
theorem Step.taken_eq (hs : Step id isOpen k s m s') (h : s.Course) (htaken : s.taken ≠ []) :
    s'.taken = s.taken ∧ s'.missed = s.missed := by
  cases hs with
  | reply r hparked =>
    rcases h.taken_cases with ⟨hnone, -⟩ | ⟨hleft, -⟩
    · exact absurd hnone htaken
    · cases hleft.symm.trans hparked
  | _ => exact ⟨rfl, rfl⟩

end Standing

/-! ## Orderly runs -/

namespace Traffic

variable {t u : Traffic} {m : Move} {moves : List Move} {k : Consumer} {attributes : List String}
  {id : String}

/-- What holds of orderly traffic as a whole. -/
def Sound (t : Traffic) : Prop :=
  (∀ e, t.exchange.consumer.fails e = false) ∧ ∀ id, (t.standing id).Sound

theorem sound_fresh (attributes : List String) (hk : ∀ e, k.fails e = false) :
    (fresh attributes k).Sound :=
  ⟨hk, fun _ => ⟨.absent, by simp [standing, fresh, Record.fresh], by
    simp [standing, fresh, Record.fresh, eventsOf]⟩⟩

theorem orderlyStep?_eq_some (h : t.orderlyStep? m = some u) :
    t.orderly m = true ∧ t.step? m = some u := by
  unfold orderlyStep? at h
  split at h
  · rename_i hm
    exact ⟨hm, h⟩
  · cases h

theorem sound_step (ht : t.Sound) (h : t.orderlyStep? m = some u) : u.Sound := by
  obtain ⟨hk, hsound⟩ := ht
  obtain ⟨hm, h⟩ := orderlyStep?_eq_some h
  refine ⟨(consumer_step h).symm ▸ hk, fun id => ?_⟩
  rcases standing_step h id with he | hs
  · exact he ▸ hsound id
  · refine (hsound id).step hk ?_ ?_ hs
    · rintro r rfl
      simpa [orderly, standing] using hm
    · rintro rfl
      cases hm

theorem sound_run (ht : t.Sound) (h : t.orderlyRun? moves = some u) : u.Sound :=
  foldlM_induction sound_step ht h

/-- Once a reply was taken for an id, no other one is at any later time. -/
theorem taken_run (ht : t.Sound) (htaken : t.taken id ≠ []) (h : t.orderlyRun? moves = some u) :
    u.Sound ∧ u.taken id = t.taken id ∧ u.missed id = t.missed id := by
  refine foldlM_induction (P := fun v => Sound v ∧ v.taken id = t.taken id ∧
    v.missed id = t.missed id) ?_ ⟨ht, rfl, rfl⟩ h
  rintro v m w ⟨hv, hsame, hsame'⟩ hw
  have hkept : w.taken id = v.taken id ∧ w.missed id = v.missed id := by
    rcases standing_step (orderlyStep?_eq_some hw).2 id with he | hs
    · exact ⟨congrArg Standing.taken he, congrArg Standing.missed he⟩
    · have hne : v.taken id ≠ [] := by rwa [hsame]
      exact hs.taken_eq (hv.2 id).course hne
  exact ⟨sound_step hv hw, hkept.1.trans hsame, hkept.2.trans hsame'⟩

/-- A reply that was taken waits for the end of a job that has handed over its event, and will be
the answer then. -/
def Promised (t : Traffic) (id : String) (r : Reply) : Prop :=
  (t.record.job id).hasForwarded = true ∧
    ∀ deadline, answer? ⟨t.exchange.joined id (.ran .forwarded) deadline, t.record⟩ id = some r

/-- What a request is answered with, and how it comes to that. -/
structure Settles (t : Traffic) (id : String) : Prop where
  /-- At most one reply is taken for an id. -/
  once : (t.taken id).length ≤ 1
  /-- A request that was answered is parked no longer. It was answered with the reply that was
  taken, or by the exchange itself when none was taken or the one that was taken was missed. -/
  answered : ∀ a, t.answer? id = some a →
    id ∉ t.exchange.parked ∧ a.Origin (t.taken id) (t.missed id)
  /-- A reply that was taken and not missed is the answer, or will be as soon as the call has heard
  of its job, and there is no other answer at any later time. -/
  taken : ∀ r, t.taken id = [r] → t.missed id = [] →
    (t.answer? id = some r ∨ t.Promised id r) ∧
      ∀ moves u a, t.orderlyRun? moves = some u → u.answer? id = some a → a = r
  /-- A request that has missed a reply leaves, or was answered that its time had run out, and
  there is no other answer at any later time. -/
  missed : t.missed id ≠ [] →
    ((∃ holds, (t.standing id).phase? = some (.leaving holds)) ∨
        t.answer? id = some .timedOut) ∧
      ∀ moves u a, t.orderlyRun? moves = some u → u.answer? id = some a → a = .timedOut
  /-- A call that is parked can check. At a closed exchange it is answered there and then. -/
  checks : (t.standing id).phase? = some .parked → ∃ u, t.step? (.checkOpen id) = some u ∧
    (t.exchange.isOpen = true → (u.standing id).phase? = some .dispatching) ∧
    (t.exchange.isOpen = false → u.answer? id = some .sourceStopped ∧ id ∉ u.exchange.parked)
  /-- A call whose job has ended can be told so. If the job was rejected, or the call has a reply
  already, it is answered there and then; otherwise it waits. -/
  joins : ∀ c e deadline, t.exchange.call? id = some c → c.phase = .dispatching →
    t.record.job id = .ended e → ∃ u, t.step? (.join id deadline) = some u ∧
      (∀ a, e.rejection?.or c.early? = some a →
        u.answer? id = some a ∧ id ∉ u.exchange.parked) ∧
      (e.rejection?.or c.early? = none → (u.standing id).phase? = some (.waiting deadline))
  /-- A call that waits is answered with any reply that is given for it. -/
  replied : ∀ deadline r, (t.standing id).phase? = some (.waiting deadline) →
    ∃ u, t.step? (.reply id r) = some u ∧ u.answer? id = some r ∧ id ∉ u.exchange.parked
  /-- A call that waits can leave when its time has run out, and is answered then. -/
  expires : ∀ deadline now, (t.standing id).phase? = some (.waiting deadline) → deadline ≤ now →
    ∃ u, t.run? (departure id now) = some u ∧ u.answer? id = some .timedOut ∧
      id ∉ u.exchange.parked
  /-- A call that leaves goes on to that answer by its own steps. -/
  leaves : ∀ holds, (t.standing id).phase? = some (.leaving holds) →
    ∃ moves u, moves ⊆ [.letGo id, .giveUp id] ∧ t.run? moves = some u ∧
      u.answer? id = some .timedOut ∧ id ∉ u.exchange.parked

/-- A request that was answered is parked no longer, and its answer has its origin. -/
theorem Sound.origin (h : t.Sound) {a : Reply} (ha : t.answer? id = some a) :
    id ∉ t.exchange.parked ∧ a.Origin (t.taken id) (t.missed id) := by
  obtain ⟨hparked, horigin⟩ := (h.2 id).course.answered_origin (phase?_of_answer? ha)
  refine ⟨fun hmem => ?_, horigin⟩
  rw [← Exchange.isParked_iff] at hmem
  exact Bool.noConfusion (hparked.symm.trans hmem)

/-- A reply that was taken and not missed is the answer, now or later. -/
theorem Sound.promised (h : t.Sound) {r : Reply} (htaken : t.taken id = [r])
    (hmissed : t.missed id = []) :
    (t.answer? id = some r ∨ t.Promised id r) ∧
      ∀ moves u a, t.orderlyRun? moves = some u → u.answer? id = some a → a = r := by
  constructor
  · rcases (h.2 id).course.of_taken htaken hmissed with hphase | ⟨hjob, c, hc, hphase, hearly⟩
    · exact .inl (answer?_of_phase? hphase)
    · refine .inr ⟨hjob, fun deadline => ?_⟩
      unfold answer?
      rw [Exchange.call?_joined hc hphase hearly deadline]
      rfl
  · intro moves u a hu ha
    have hne : t.taken id ≠ [] := by simp [htaken]
    obtain ⟨hsound, hsame, hsame'⟩ := taken_run h hne hu
    have horigin := (hsound.origin ha).2
    rw [hsame, hsame', htaken, hmissed] at horigin
    cases horigin
    rfl

/-- A request that has missed a reply is answered that its time had run out, now or later. -/
theorem Sound.unheard (h : t.Sound) (hmissed : t.missed id ≠ []) :
    ((∃ holds, (t.standing id).phase? = some (.leaving holds)) ∨
        t.answer? id = some .timedOut) ∧
      ∀ moves u a, t.orderlyRun? moves = some u → u.answer? id = some a → a = .timedOut := by
  refine ⟨((h.2 id).course.of_missed hmissed).imp_right answer?_of_phase?, ?_⟩
  intro moves u a hu ha
  have htaken : t.taken id ≠ [] := by
    rcases (h.2 id).course.taken_cases with ⟨-, hnone⟩ | ⟨-, r, htaken, -⟩
    · exact absurd hnone hmissed
    · change t.taken id = [r] at htaken
      simp [htaken]
  obtain ⟨hsound, -, hsame⟩ := taken_run h htaken hu
  have horigin := (hsound.origin ha).2
  rw [hsame] at horigin
  generalize u.taken id = taken, t.missed id = missed at hmissed horigin
  cases horigin with
  | taken | own => exact absurd rfl hmissed
  | missed r ha => exact ha

/-- A call that is told how its job ended is answered, or waits. -/
theorem Sound.exists_join (h : t.Sound) {c : Call} {e : DispatchEnd}
    (hc : t.exchange.call? id = some c) (hphase : c.phase = .dispatching)
    (hjob : t.record.job id = .ended e) (deadline : Nat) :
    ∃ u, t.step? (.join id deadline) = some u ∧
      (∀ a, e.rejection?.or c.early? = some a →
        u.answer? id = some a ∧ id ∉ u.exchange.parked) ∧
      (e.rejection?.or c.early? = none → (u.standing id).phase? = some (.waiting deadline)) := by
  obtain ⟨u, hu, -, hnext⟩ := Traffic.exists_join hc hphase hjob deadline
  have horderly : t.orderlyStep? (.join id deadline) = some u := hu
  have hsound : u.Sound := sound_step h horderly
  refine ⟨u, hu, fun a ha => ?_, fun hnone => ?_⟩
  · rw [ha] at hnext
    have hanswer := answer?_of_phase? hnext
    exact ⟨hanswer, (hsound.origin hanswer).1⟩
  · rw [hnone] at hnext
    exact hnext

/-- **A request is answered with the reply that was taken for it, unless its call had left.** At
most one reply is taken for an id, and it is the answer if the call still looked for one. All other
answers are those of the exchange itself. No reply was taken for such a request, or it was taken
when the call had seen that its time had run out: then it is lost. Each request has a way to its
answer, wherever it stands, and is parked no longer once it has it. -/
theorem settles_of_run (hk : ∀ e, k.fails e = false)
    (h : (fresh attributes k).orderlyRun? moves = some t) (id : String) : t.Settles id := by
  have ht : t.Sound := sound_run (sound_fresh attributes hk) h
  exact {
    once := by
      rcases (ht.2 id).course.taken_cases with ⟨hnone, -⟩ | ⟨-, r, htaken, -⟩
      · change t.taken id = [] at hnone
        simp [hnone]
      · change t.taken id = [r] at htaken
        simp [htaken]
    answered := fun _ => ht.origin
    taken := fun _ => ht.promised
    missed := ht.unheard
    checks := exists_checkOpen
    joins := fun _ _ deadline hc hphase hjob => ht.exists_join hc hphase hjob deadline
    replied := fun _ r hphase =>
      exists_reply ((Exchange.isParked_iff _ _).1 ((ht.2 id).course.isParked_of_waiting hphase))
        hphase r
    expires := fun _ _ => exists_departure
    leaves := fun _ hphase => by
      obtain ⟨moves, u, hmoves, hu, -, hanswer⟩ := exists_giveUp hphase
      exact ⟨moves, u, hmoves, hu, hanswer⟩ }

/-- A reply that comes while the job is still under way, and then the end of the exchange. -/
def hasty : List Move :=
  [.park "a", .checkOpen "a", .park "b", .handOver "a" ⟨[], .empty, default, []⟩ (.ok "hello"),
    .reply "a" (.plain 200 "done"), .close, .beginListing, .endListing ["b"], .drain "b"]

/-- The reply that came first is the answer, whatever follows. -/
theorem settles_of_run_hasty :
    ∃ t, (fresh [] (.steady "desk")).orderlyRun? hasty = some t ∧
      t.taken "a" = [.plain 200 "done"] ∧ t.Promised "a" (.plain 200 "done") ∧
      ∀ moves u a, t.orderlyRun? moves = some u → u.answer? "a" = some a →
        a = .plain 200 "done" := by
  refine ⟨_, rfl, rfl, ?_⟩
  have hk : ∀ e, (Consumer.steady "desk").fails e = false := fun _ => rfl
  have hrun : (fresh [] (.steady "desk")).orderlyRun? hasty = some _ := rfl
  obtain ⟨hanswer, hlater⟩ := (settles_of_run hk hrun "a").taken (.plain 200 "done") rfl rfl
  refine ⟨hanswer.resolve_left fun hanswered => ?_, hlater⟩
  have hnone : none = some (Reply.plain 200 "done") := hanswered
  cases hnone

/-- A reply that comes when a call has seen that its time has run out. -/
def belated : List Move :=
  [.park "a", .checkOpen "a", .handOver "a" ⟨[], .empty, default, []⟩ (.ok "hello"), .endJob "a",
    .join "a" 30, .expire "a" 30, .reply "a" (.plain 200 "done"), .letGo "a", .giveUp "a"]

/-- **Not every reply that is taken is the answer.** Whoever gave the reply is told that it was
taken; the request is answered that there was no reply in time. -/
theorem taken_and_timedOut :
    ∃ t, (fresh [] (.steady "desk")).orderlyRun? belated = some t ∧
      t.record.replies = [("a", .plain 200 "done", true)] ∧
      t.answer? "a" = some .timedOut ∧ Reply.plain 200 "done" ≠ .timedOut :=
  ⟨_, rfl, rfl, rfl, by decide +kernel⟩

end Traffic

end Correlator
