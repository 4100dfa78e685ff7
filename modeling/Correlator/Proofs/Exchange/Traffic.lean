import Mathlib.Logic.Function.Basic
import Correlator.Proofs.Exchange.Calls
import Correlator.Proofs.Runs

/-!
# Traffic at an exchange

Calls, replies, timers and the end of an exchange take their steps in any order. Each step is one
of the exchange's own; beside the exchange a record is kept of what cannot be seen in it.

* `Traffic`: an exchange with its record; `Traffic.fresh`: before anything has happened.
* `Traffic.Move`, `Traffic.step?`: one step, if it can be taken; `Traffic.run?`: a run of steps.
* `Traffic.run?_disconnect`: an exchange that is disconnected at a stroke is one such run.
* `Traffic.front_step`, `Traffic.EndStep`: steps of calls and steps of the end; the former leave
  alone what the latter change.
* `Traffic.nodup_ids_run`: no two calls have one id.
* `Traffic.run?_expire`: calls that are answered at a stroke when their time has run out take such
  steps too. `Traffic.departure` are the steps of one of them.

Whether a step can be taken is asked of the exchange and of the record, and so a run may stop
anywhere: a call may be left alone before its check, a job may never have its turn, and an exchange
may be closed and never be drained.
-/

namespace Correlator

/-! ## Records -/

/-- How far the end of an exchange has come. -/
inductive Closing
  | notBegun
  /-- No more calls are let in. -/
  | closed
  /-- The parked ids are being listed; these were parked when that began. -/
  | listing (there : List String)
  /-- The ids that were listed are taken out one after another; these are left. -/
  | draining (rest : List String)
  deriving DecidableEq, Repr

/-- How far the job of a request has come. -/
inductive JobState
  | unsubmitted
  | submitted
  /-- The body was read, and if there is an event the consumer has it. -/
  | ran (outcome : DispatchOutcome)
  | ended (e : DispatchEnd)
  deriving DecidableEq, Repr

/-- Whether the consumer got the event and took it. -/
def JobState.hasForwarded (j : JobState) : Bool :=
  j = .ran .forwarded || j = .ended (.ran .forwarded)

/-- How a job ends that has run, by the event that it handed over: a consumer that fails on it
takes the job down with it. -/
def Consumer.endOf (k : Consumer) (outcome : DispatchOutcome) (event? : Option Event) :
    DispatchEnd :=
  if outcome = .forwarded ∧ event?.any k.fails then .crashed else .ran outcome

theorem Consumer.endOf_steady {k : Consumer} (hk : ∀ e, k.fails e = false)
    (outcome : DispatchOutcome) (event? : Option Event) :
    k.endOf outcome event? = .ran outcome := by
  cases event? <;> simp [endOf, hk]

/-- There is an event just when the request is forwarded. -/
theorem Dispatch.conclude_eq_forwarded (d : Dispatch) (read : Except Fault String) :
    (d.conclude read).1 = .forwarded ↔ (d.conclude read).2.1 ≠ none := by
  unfold conclude
  split
  · simp
  · split <;> simp

/-- The job goes by the event that it has handed over itself. -/
theorem Consumer.endOf_conclude (k : Consumer) (d : Dispatch) (read : Except Fault String)
    (events : List Event) :
    k.endOf (d.conclude read).1 (events ++ (d.conclude read).2.1.toList).getLast? =
      k.endOf (d.conclude read).1 (d.conclude read).2.1 := by
  have hforwarded := d.conclude_eq_forwarded read
  cases hevent : (d.conclude read).2.1 with
  | some e => simp
  | none =>
    have hne : (d.conclude read).1 ≠ .forwarded := fun h => hforwarded.1 h hevent
    simp [endOf, hne]

/-- What is kept beside an exchange. -/
structure Record where
  closing : Closing
  /-- The job of each id. -/
  job : String → JobState
  /-- The events that the consumer was given, each with the id of its request. -/
  events : List (String × Event)
  /-- The replies that were given for ids, each with whether it was taken. -/
  replies : List (String × Reply × Bool)
  /-- The replies that were taken for calls which looked for none any more. -/
  missed : List (String × Reply)

/-- Nothing has happened yet. -/
def Record.fresh : Record := ⟨.notBegun, fun _ => .unsubmitted, [], [], []⟩

/-- An exchange with its record. -/
structure Traffic where
  exchange : Exchange
  record : Record

namespace Traffic

/-- A new exchange. -/
def fresh (attributes : List String) (consumer : Consumer) : Traffic :=
  ⟨.new attributes consumer, .fresh⟩

/-- The traffic with the job of an id moved on. -/
def setJob (t : Traffic) (id : String) (j : JobState) : Traffic :=
  { t with record := { t.record with job := Function.update t.record.job id j } }

/-- The traffic with its end moved on. -/
def setClosing (t : Traffic) (closing : Closing) : Traffic :=
  { t with record := { t.record with closing } }

/-- The events of a request. -/
def eventsOf (t : Traffic) (id : String) : List Event :=
  t.record.events.filterMap fun (id', e) => if id' = id then some e else none

/-- The replies for an id that were taken. -/
def taken (t : Traffic) (id : String) : List Reply :=
  t.record.replies.filterMap fun (id', r, took) => if id' = id ∧ took then some r else none

/-- The replies for an id that were taken, and that its call looked for no more. -/
def missed (t : Traffic) (id : String) : List Reply :=
  t.record.missed.filterMap fun (id', r) => if id' = id then some r else none

/-- What a call was answered with. -/
def answer? (t : Traffic) (id : String) : Option Reply :=
  (t.exchange.call? id).bind Call.answer?

/-! ## Steps -/

/-- The steps of calls, of their jobs, of whoever replies, and of the end. -/
inductive Move
  | park (id : String)
  | checkOpen (id : String)
  /-- The job of a request has its turn: from the body that was read there may follow an event,
  which is handed to the consumer. -/
  | handOver (id : String) (d : Dispatch) (read : Except Fault String)
  | endJob (id : String)
  /-- The pool is closed before the job has its turn. -/
  | turnAway (id : String)
  /-- A call is told how its job ended. -/
  | join (id : String) (deadline : Nat)
  /-- A call sees that its time has run out, and looks for no reply any more. -/
  | expire (id : String) (now : Nat)
  /-- A call that leaves lets go of its end. -/
  | letGo (id : String)
  /-- A call that leaves takes its id out, and is answered. -/
  | giveUp (id : String)
  | hangUp (id : String)
  | reply (id : String) (r : Reply)
  | close
  | beginListing
  | endListing (ids : List String)
  | drain (id : String)

/-- One step, if it can be taken. A listing has each id that is parked from its beginning to its
end; of others it may have any. -/
def step? (t : Traffic) : Move → Option Traffic
  | .park id =>
    if t.exchange.call? id = none then some { t with exchange := t.exchange.park id } else none
  | .checkOpen id =>
    match t.exchange.call? id with
    | some ⟨_, .parked, _⟩ =>
      let t' := if t.exchange.isOpen then t.setJob id .submitted else t
      some { t' with exchange := t.exchange.checkOpen id }
    | _ => none
  | .handOver id d read =>
    if t.record.job id = .submitted then
      let (outcome, event?, _) := d.conclude read
      let events := t.record.events ++ (event?.map (id, ·)).toList
      some ({ t with record := { t.record with events } }.setJob id (.ran outcome))
    else none
  | .endJob id =>
    match t.record.job id with
    | .ran outcome =>
      let ended := t.exchange.consumer.endOf outcome (t.eventsOf id).getLast?
      some (t.setJob id (.ended ended))
    | _ => none
  | .turnAway id =>
    if t.record.job id = .submitted then some (t.setJob id (.ended .turnedAway)) else none
  | .join id deadline =>
    match t.record.job id with
    | .ended e => some { t with exchange := t.exchange.joined id e deadline }
    | _ => none
  | .expire id now =>
    if (t.exchange.call? id).any (·.isLate now) then
      some { t with exchange := t.exchange.leave id }
    else none
  | .letGo id =>
    match t.exchange.call? id with
    | some ⟨_, .leaving true, _⟩ => some { t with exchange := t.exchange.letGo id }
    | _ => none
  | .giveUp id =>
    match t.exchange.call? id with
    | some ⟨_, .leaving false, _⟩ => some { t with exchange := t.exchange.giveUp id }
    | _ => none
  | .hangUp id =>
    match t.exchange.call? id with
    | some ⟨_, .dispatching, _⟩ => some { t with exchange := t.exchange.hangUp id }
    | some ⟨_, .waiting _, _⟩ => some { t with exchange := t.exchange.hangUp id }
    | _ => none
  | .reply id r =>
    let took := (t.exchange.reply id r).2
    let replies := t.record.replies ++ [(id, r, took)]
    let missed := t.record.missed ++
      if took && (t.exchange.call? id).any Call.isLeaving then [(id, r)] else []
    some ⟨(t.exchange.reply id r).1, { t.record with replies, missed }⟩
  | .close =>
    match t.record.closing with
    | .notBegun => some ({ t with exchange := t.exchange.close }.setClosing .closed)
    | _ => none
  | .beginListing =>
    match t.record.closing with
    | .closed => some (t.setClosing (.listing t.exchange.parked))
    | _ => none
  | .endListing ids =>
    match t.record.closing with
    | .listing there =>
      if ∀ id ∈ there, id ∈ t.exchange.parked → id ∈ ids then some (t.setClosing (.draining ids))
      else none
    | _ => none
  | .drain id =>
    match t.record.closing with
    | .draining (id' :: rest) =>
      if id' = id then some ({ t with exchange := t.exchange.drain id }.setClosing (.draining rest))
      else none
    | _ => none

/-- A run of steps, if each of them can be taken. -/
def run? (t : Traffic) (moves : List Move) : Option Traffic := moves.foldlM step? t

/-! ## Runs -/

variable {t : Traffic}

/-- The listed ids are taken out one after another. -/
theorem run?_drain (ids : List String) (x : Exchange) (r : Record) :
    run? ⟨x, { r with closing := .draining ids }⟩ (ids.map .drain) =
      some ⟨ids.foldl Exchange.drain x, { r with closing := .draining [] }⟩ := by
  induction ids generalizing x with
  | nil => rfl
  | cons id ids ih =>
    refine Eq.trans ?_ (ih (x.drain id))
    simp [run?, step?, setClosing]

/-- The steps of the end, if just these ids are listed. -/
def disconnection (ids : List String) : List Move :=
  .close :: .beginListing :: .endListing ids :: ids.map .drain

/-- An exchange that is disconnected at a stroke takes the steps of its end one after another. -/
theorem run?_disconnect (h : t.record.closing = .notBegun) :
    t.run? (disconnection t.exchange.parked) =
      some ⟨t.exchange.disconnect, { t.record with closing := .draining [] }⟩ := by
  refine Eq.trans ?_ (run?_drain t.exchange.parked t.exchange.close t.record)
  simp [run?, disconnection, step?, h, setClosing, Exchange.close]

/-- The steps of a call whose time has run out. -/
def departure (id : String) (now : Nat) : List Move := [.expire id now, .letGo id, .giveUp id]

/-- A call whose time has run out leaves step by step, though it is answered at a stroke. -/
theorem run?_departure {x : Exchange} {id : String} {now : Nat}
    (hlate : ((x.call? id).any fun c => c.isLate now) = true) (r : Record) :
    run? ⟨x, r⟩ (departure id now) = some ⟨x.giveUp id, r⟩ := by
  obtain ⟨c, hc⟩ : ∃ c, x.call? id = some c := by
    cases hc : x.call? id with
    | none => simp [hc] at hlate
    | some c => exact ⟨c, rfl⟩
  have hleave : step? ⟨x, r⟩ (.expire id now) = some ⟨x.leave id, r⟩ := by
    simp only [step?]
    rw [if_pos hlate]
  have hleaving : (x.leave id).call? id = some { c with phase := .leaving true } := by
    rw [Exchange.call?_leave, if_pos rfl, hc]
    rfl
  have hletGo : step? ⟨x.leave id, r⟩ (.letGo id) = some ⟨(x.leave id).letGo id, r⟩ := by
    simp only [step?, hleaving]
  have hgone : ((x.leave id).letGo id).call? id = some { c with phase := .leaving false } := by
    rw [Exchange.call?_letGo, if_pos rfl, hleaving]
    rfl
  have hgiveUp : step? ⟨(x.leave id).letGo id, r⟩ (.giveUp id) =
      some ⟨((x.leave id).letGo id).giveUp id, r⟩ := by
    simp only [step?, hgone]
  rw [← x.giveUp_letGo_leave id]
  exact (foldlM_cons_of_step hleave).trans
    ((foldlM_cons_of_step hletGo).trans (foldlM_cons_of_step hgiveUp))

/-- Calls whose time has run out leave one after another. -/
theorem run?_departures {x : Exchange} {now : Nat} {ids : List String} (hids : ids.Nodup)
    (hlate : ∀ id ∈ ids, ((x.call? id).any fun c => c.isLate now) = true) (r : Record) :
    run? ⟨x, r⟩ (ids.flatMap (departure · now)) = some ⟨ids.foldl Exchange.giveUp x, r⟩ := by
  induction ids generalizing x with
  | nil => rfl
  | cons id ids ih =>
    obtain ⟨hid, hids⟩ := List.nodup_cons.1 hids
    obtain ⟨hfirst, hlate⟩ := List.forall_mem_cons.1 hlate
    -- the other calls are as late as they were
    have hothers : ∀ id' ∈ ids,
        (((x.giveUp id).call? id').any fun c => c.isLate now) = true := by
      intro id' hid'
      have hne : id' ≠ id := fun e => hid (e ▸ hid')
      unfold Exchange.giveUp
      rw [Exchange.call?_conclude, if_neg hne]
      exact hlate id' hid'
    exact (foldlM_append_of_run (run?_departure hfirst r)).trans (ih hids hothers)

variable {u : Traffic} {m : Move}

/-! ## Steps of the end -/

/-- Whether a step belongs to the end of the exchange. -/
def Move.isOfEnd : Move → Bool
  | .close | .beginListing | .endListing _ | .drain _ => true
  | _ => false

/-- Calls, jobs and replies do nothing to what belongs to the exchange as a whole. -/
theorem front_step (hm : m.isOfEnd = false) (h : t.step? m = some u) :
    u.exchange.front = t.exchange.front ∧ u.record.closing = t.record.closing := by
  cases m with
  | park | handOver | endJob | turnAway | expire =>
    simp only [step?] at h
    split at h
    · cases h
      exact ⟨rfl, rfl⟩
    · cases h
  | checkOpen id =>
    simp only [step?] at h
    split at h
    · cases h
      refine ⟨t.exchange.front_checkOpen id, ?_⟩
      dsimp only
      split <;> rfl
    · cases h
  | join id deadline =>
    simp only [step?] at h
    split at h
    · cases h
      exact ⟨t.exchange.front_joined id _ deadline, rfl⟩
    · cases h
  | letGo | giveUp =>
    simp only [step?] at h
    split at h
    · cases h
      exact ⟨rfl, rfl⟩
    · cases h
  | hangUp id =>
    simp only [step?] at h
    split at h
    · cases h
      exact ⟨rfl, rfl⟩
    · cases h
      exact ⟨rfl, rfl⟩
    · cases h
  | reply id r =>
    simp only [step?, Option.some.injEq] at h
    subst h
    exact ⟨t.exchange.front_reply id r, rfl⟩
  | close | beginListing | endListing | drain => cases hm

/-- What the steps of the end do. -/
inductive EndStep (t : Traffic) : Move → Traffic → Prop
  | close : t.record.closing = .notBegun →
      EndStep t .close ({ t with exchange := t.exchange.close }.setClosing .closed)
  | beginListing : t.record.closing = .closed →
      EndStep t .beginListing (t.setClosing (.listing t.exchange.parked))
  | endListing {there} (ids : List String) : t.record.closing = .listing there →
      (∀ id ∈ there, id ∈ t.exchange.parked → id ∈ ids) →
      EndStep t (.endListing ids) (t.setClosing (.draining ids))
  | drain {rest} (id : String) : t.record.closing = .draining (id :: rest) →
      EndStep t (.drain id)
        ({ t with exchange := t.exchange.drain id }.setClosing (.draining rest))

theorem endStep_of_step? (hm : m.isOfEnd = true) (h : t.step? m = some u) : EndStep t m u := by
  cases m with
  | close =>
    simp only [step?] at h
    split at h
    · rename_i hclosing
      cases h
      exact .close hclosing
    · cases h
  | beginListing =>
    simp only [step?] at h
    split at h
    · rename_i hclosing
      cases h
      exact .beginListing hclosing
    · cases h
  | endListing ids =>
    simp only [step?] at h
    split at h
    · rename_i there hclosing
      split at h
      · rename_i hids
        cases h
        exact .endListing ids hclosing hids
      · cases h
    · cases h
  | drain id =>
    simp only [step?] at h
    split at h
    · rename_i id' rest hclosing
      split at h
      · rename_i hid
        subst hid
        cases h
        exact .drain id' hclosing
      · cases h
    · cases h
  | _ => cases hm

/-- An exchange keeps its consumer. -/
theorem consumer_step (h : t.step? m = some u) : u.exchange.consumer = t.exchange.consumer := by
  cases hm : m.isOfEnd with
  | false => exact congrArg (fun front => front.2.1) (front_step hm h).1
  | true =>
    cases endStep_of_step? hm h with
    | close | beginListing | endListing => rfl
    | drain id => exact congrArg (fun front => front.2.1) (t.exchange.front_reply id _)

/-! ## Ids -/

/-- A call that is not yet there is parked behind all others. -/
theorem ids_park {id : String} (h : t.step? (.park id) = some u) :
    id ∉ t.exchange.ids ∧ u.exchange.ids = t.exchange.ids ++ [id] := by
  simp only [step?] at h
  split at h
  · rename_i hnone
    cases h
    exact ⟨Exchange.not_mem_ids hnone, by simp [Exchange.ids, Exchange.park]⟩
  · cases h

/-- All other steps leave the ids of the calls as they are. -/
theorem ids_step (hm : ∀ id, m ≠ .park id) (h : t.step? m = some u) :
    u.exchange.ids = t.exchange.ids := by
  cases m with
  | park id => exact absurd rfl (hm id)
  | handOver | endJob | turnAway =>
    simp only [step?] at h
    split at h <;> cases h
    rfl
  | checkOpen | join | expire | letGo | giveUp | hangUp =>
    simp only [step?] at h
    split at h <;> cases h <;> simp
  | reply id r =>
    cases h
    exact t.exchange.ids_reply id r
  | close | beginListing | endListing =>
    cases endStep_of_step? rfl h
    rfl
  | drain id =>
    cases endStep_of_step? rfl h
    exact t.exchange.ids_reply id _

/-- A step lets no two calls have one id. -/
theorem nodup_ids_step (ht : t.exchange.ids.Nodup) (h : t.step? m = some u) :
    u.exchange.ids.Nodup := by
  by_cases hm : ∀ id, m ≠ .park id
  · exact (ids_step hm h).symm ▸ ht
  · obtain ⟨id, rfl⟩ := by simpa using hm
    obtain ⟨hnew, hids⟩ := ids_park h
    rw [hids, List.nodup_append_comm]
    exact List.nodup_cons.2 ⟨hnew, ht⟩

/-- No two calls have one id. -/
theorem nodup_ids_run {attributes : List String} {k : Consumer} {moves : List Move}
    (h : (fresh attributes k).run? moves = some t) : t.exchange.ids.Nodup :=
  foldlM_induction (P := fun t => t.exchange.ids.Nodup) nodup_ids_step List.nodup_nil h

/-- The steps of all calls whose time has run out. -/
def departures (t : Traffic) (now : Nat) : List Move :=
  ((t.exchange.calls.filter fun c => c.isLate now).map Call.id).flatMap (departure · now)

theorem run?_departures_of_nodup (ht : t.exchange.ids.Nodup) (now : Nat) :
    t.run? (t.departures now) = some { t with exchange := t.exchange.expire now } := by
  have hids : ((t.exchange.calls.filter fun c => c.isLate now).map Call.id).Nodup :=
    ht.sublist (List.filter_sublist.map Call.id)
  refine (run?_departures hids ?_ t.record).trans ?_
  · intro id hid
    obtain ⟨c, hc, rfl⟩ := List.mem_map.1 hid
    obtain ⟨hmem, hlate⟩ := List.mem_filter.1 hc
    rw [Exchange.call?_of_mem hmem ht]
    exact hlate
  · rw [List.foldl_map]
    rfl

/-- Calls whose time has run out leave one after another, though they are answered at a stroke. -/
theorem run?_expire {attributes : List String} {k : Consumer} {moves : List Move}
    (h : (fresh attributes k).run? moves = some t) (now : Nat) :
    t.run? (t.departures now) = some { t with exchange := t.exchange.expire now } :=
  run?_departures_of_nodup (nodup_ids_run h) now

end Traffic

end Correlator
