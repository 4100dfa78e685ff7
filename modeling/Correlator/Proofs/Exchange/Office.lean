import Correlator.Proofs.Bodies
import Correlator.Proofs.Exchange.Release
import Correlator.Proofs.Pool.Seats

/-!
# Offices

A source at work: its exchange, the pool that runs the jobs of its requests among others, the
bodies of these requests, and a clock. Requests park and check, their jobs get a slot or wait for
one, bodies arrive piece by piece, and events are handed over, in any order and at any time.

* `Mail`: what comes in: the requests, their bodies, and the settings of the source.
* `Turn`: how far the job of a request has come, as long as it has not handed its event over.
* `Office`, `Office.step?`, `Office.run?`: a source at work, its steps and its runs.
* `Office.Step`, `Office.step_of_step?`: what each step does.
* `Placed`: what holds of a request and its job, wherever they stand.
* **`Office.kept_run`**: it holds of all requests in all runs.
-/

namespace Correlator

/-! ## What comes in -/

/-- The settings of a source, and the requests that come in, each with its body. -/
structure Mail where
  /-- The greatest number of bytes that a body may have. -/
  limit : Nat
  /-- How long a request waits for its reply. -/
  timeout : Nat
  dispatch : String → Dispatch
  body : String → Body

/-- The payload of a request. -/
def Mail.payload (mail : Mail) (id : String) : Except Fault String :=
  (mail.body id).payload mail.limit

/-- What becomes of a request once its body was read. -/
def Mail.outcome (mail : Mail) (id : String) : DispatchOutcome :=
  ((mail.dispatch id).conclude (mail.payload id)).1

/-- The event of a request, if its body makes one. -/
def Mail.event? (mail : Mail) (id : String) : Option Event :=
  (mail.dispatch id).event? (mail.body id) mail.limit

theorem Mail.event?_eq (mail : Mail) (id : String) :
    ((mail.dispatch id).conclude (mail.payload id)).2.1 = mail.event? id :=
  (mail.dispatch id).event?_run (mail.body id) mail.limit

/-- A request is forwarded just when its body makes an event. -/
theorem Mail.outcome_eq_forwarded (mail : Mail) (id : String) :
    mail.outcome id = .forwarded ↔ mail.event? id ≠ none := by
  rw [← mail.event?_eq]
  exact Dispatch.conclude_eq_forwarded ..

/-- How the job of a request ends that gets a slot. -/
def Mail.ending (mail : Mail) (k : Consumer) (id : String) : DispatchEnd :=
  k.endOf (mail.outcome id) (mail.event? id)

theorem Mail.ending_of_events {mail : Mail} {id : String} {events : List Event}
    (h : events = (mail.event? id).toList) (k : Consumer) :
    k.endOf (mail.outcome id) events.getLast? = mail.ending k id := by
  subst h
  unfold ending
  cases mail.event? id <;> rfl

/-- Only a consumer that fails on the event of a request takes its job down. -/
theorem Mail.ending_cases (mail : Mail) (k : Consumer) (id : String) :
    (mail.event? id = none ∧ mail.outcome id ≠ .forwarded ∧
        mail.ending k id = .ran (mail.outcome id)) ∨
      ∃ e, mail.event? id = some e ∧
        mail.ending k id = if k.fails e then .crashed else .ran .forwarded := by
  have hforwarded := mail.outcome_eq_forwarded id
  unfold ending
  cases hevent : mail.event? id with
  | none =>
    have hne : mail.outcome id ≠ .forwarded := fun h => hforwarded.1 h hevent
    exact .inl ⟨rfl, hne, by simp [Consumer.endOf, hne]⟩
  | some e =>
    rw [hforwarded.2 (by simp [hevent])]
    exact .inr ⟨e, rfl, by simp [Consumer.endOf]⟩

/-! ## Jobs -/

/-- How far the job of a request has come. -/
inductive Turn
  /-- It has not asked for a slot yet. -/
  | unplaced
  | inLine
  /-- It takes the body in, of which these pieces are still to come. -/
  | reading (i : Intake) (rest : Body)
  /-- The body has come to its end. -/
  | read (payload : Except Fault String)
  /-- It has handed the event over, if there is one. -/
  | handed
  /-- The pool was closed before it got a slot. -/
  | skipped

namespace Turn

/-- The next piece of the body arrives, or its end. -/
def next (i : Intake) : Body → Turn
  | [] => .read (i.reads [])
  | .chunk bs :: rest =>
    match (i.take .empty bs).1 with
    | .ok i => .reading i rest
    | .error e => .read (.error e)
  | .broken e :: _ => .read (.error e.toFault)
  | .gate _ :: rest => .reading i rest

/-- Whatever arrives, the reading goes on to what it has been going to read. -/
theorem next_cases (i : Intake) (body : Body) :
    next i body = .read (i.reads body) ∨
      ∃ i' piece rest, body = piece :: rest ∧ next i body = .reading i' rest ∧
        i'.reads rest = i.reads body := by
  cases body with
  | nil => exact .inl rfl
  | cons piece rest =>
    cases piece with
    | chunk bs =>
      rw [Intake.reads_chunk]
      cases htake : (i.take .empty bs).1 with
      | error e => exact .inl (by simp [next, htake])
      | ok i' => exact .inr ⟨i', _, rest, rfl, by simp [next, htake], rfl⟩
    | broken e => exact .inl rfl
    | gate name => exact .inr ⟨i, _, rest, rfl, rfl, rfl⟩

end Turn

/-- A job of the pool: that of a request of this source, or some other one. -/
inductive Errand
  | own (id : String)
  | other (n : Nat)
  deriving DecidableEq, Repr

/-! ## Offices -/

/-- A source at work. -/
structure Office where
  traffic : Traffic
  pool : Pool Errand
  turn : String → Turn
  now : Nat
  /-- When each call was told how its job had ended. -/
  told? : String → Option Nat

/-- The steps of a source at work. -/
inductive Office.Move
  /-- A step of calls, of whoever replies, or of the end of the exchange. -/
  | traffic (m : Traffic.Move)
  /-- The job of a request asks for a slot. -/
  | submit (id : String)
  /-- The next piece of a body arrives, or its end. -/
  | receive (id : String)
  | handOver (id : String)
  /-- The job of a request ends, and its slot goes to the next one. -/
  | endJob (id : String)
  | turnAway (id : String)
  /-- A call is told how its job has ended, and its time begins. -/
  | join (id : String)
  | expire (id : String)
  | elapse (time : Nat)
  | submitOther (n : Nat)
  | releaseOther (n : Nat)
  | closePool

/-- Whether a step of traffic is one of jobs. -/
def Traffic.Move.isOfJob : Traffic.Move → Bool
  | .handOver .. | .endJob _ | .turnAway _ => true
  | _ => false

/-- Whether a step of traffic waits for the clock. -/
def Traffic.Move.isTimed : Traffic.Move → Bool
  | .join .. | .expire .. => true
  | _ => false

namespace Office

variable (mail : Mail) (r : Office)

/-- Nothing has happened yet, and the pool is idle. -/
def fresh (attributes : List String) (k : Consumer) (size : Nat) : Office :=
  ⟨.fresh attributes k, .idle size, fun _ => .unplaced, 0, fun _ => none⟩

/-- The job of each request. -/
def job (id : String) : JobState := r.traffic.record.job id

/-- Where the job of a request stands at the pool. -/
def seat (id : String) : Seat := r.pool.seat (.own id)

def setTurn (id : String) (turn : Turn) : Office :=
  { r with turn := Function.update r.turn id turn }

/-- A job that gets a slot begins to read. -/
def begun (id : String) : Turn := .reading (.collecting mail.limit) (mail.body id)

/-- What a job does first that was submitted. -/
def admitted (id : String) : Admission → Turn
  | .started => begun mail id
  | .queued => .inLine
  | .refused => .skipped

/-- A slot becomes free, and whoever is next begins. -/
def free (e : Errand) : Office :=
  { r with
    pool := (r.pool.release e).1
    turn := fun id =>
      if (r.pool.release e).2 = some (.own id) then begun mail id else r.turn id }

/-- The pool is closed, and no job that is in line gets a slot any more. -/
def closePool : Office :=
  { r with
    pool := r.pool.close.1
    turn := fun id => if .own id ∈ r.pool.line then .skipped else r.turn id }

/-- A call that waits for its job is told, now, how that has ended. -/
def hear (id : String) : Office :=
  if (r.traffic.exchange.call? id).any Call.isDispatching then
    { r with told? := Function.update r.told? id (some r.now) }
  else r

/-- The traffic after a step. -/
def onTraffic (m : Traffic.Move) : Option Office :=
  (r.traffic.step? m).map fun traffic => { r with traffic }

/-- One step, if it can be taken. -/
def step? : Move → Option Office
  | .traffic m => if m.isOfJob = false ∧ m.isTimed = false then r.onTraffic m else none
  | .submit id =>
    match r.job id, r.turn id with
    | .submitted, .unplaced =>
      let (pool, admission) := r.pool.submit (.own id)
      some ({ r with pool }.setTurn id (admitted mail id admission))
    | _, _ => none
  | .receive id =>
    match r.turn id with
    | .reading i rest => some (r.setTurn id (.next i rest))
    | _ => none
  | .handOver id =>
    match r.turn id with
    | .read payload => (r.setTurn id .handed).onTraffic (.handOver id (mail.dispatch id) payload)
    | _ => none
  | .endJob id => (r.free mail (.own id)).onTraffic (.endJob id)
  | .turnAway id =>
    match r.turn id with
    | .skipped => r.onTraffic (.turnAway id)
    | _ => none
  | .join id => (r.hear id).onTraffic (.join id (r.now + mail.timeout))
  | .expire id => r.onTraffic (.expire id r.now)
  | .elapse time => some { r with now := r.now + time }
  | .submitOther n =>
    match r.pool.seat (.other n) with
    | .away => some { r with pool := (r.pool.submit (.other n)).1 }
    | _ => none
  | .releaseOther n =>
    match r.pool.seat (.other n) with
    | .slot => some (r.free mail (.other n))
    | _ => none
  | .closePool => some r.closePool

/-- A run of steps, if each of them can be taken. -/
def run? (moves : List Move) : Option Office := moves.foldlM (step? mail) r

/-! ## What each step does -/

/-- What each step does. -/
inductive Step : Move → Office → Prop
  | traffic {m t} : m.isOfJob = false → m.isTimed = false → r.traffic.step? m = some t →
      Step (.traffic m) { r with traffic := t }
  | submit {id} : r.job id = .submitted → r.turn id = .unplaced →
      Step (.submit id)
        ({ r with pool := (r.pool.submit (.own id)).1 }.setTurn id
          (admitted mail id (r.pool.submit (.own id)).2))
  | receive {id i rest} : r.turn id = .reading i rest →
      Step (.receive id) (r.setTurn id (.next i rest))
  | handOver {id payload t} : r.turn id = .read payload →
      r.traffic.step? (.handOver id (mail.dispatch id) payload) = some t →
      Step (.handOver id) { r.setTurn id .handed with traffic := t }
  | endJob {id t} : r.traffic.step? (.endJob id) = some t →
      Step (.endJob id) { r.free mail (.own id) with traffic := t }
  | turnAway {id t} : r.turn id = .skipped → r.traffic.step? (.turnAway id) = some t →
      Step (.turnAway id) { r with traffic := t }
  | join {id t} : r.traffic.step? (.join id (r.now + mail.timeout)) = some t →
      Step (.join id) { r.hear id with traffic := t }
  | expire {id t} : r.traffic.step? (.expire id r.now) = some t →
      Step (.expire id) { r with traffic := t }
  | elapse (time : Nat) : Step (.elapse time) { r with now := r.now + time }
  | submitOther {n} : r.pool.seat (.other n) = .away →
      Step (.submitOther n) { r with pool := (r.pool.submit (.other n)).1 }
  | releaseOther {n} : r.pool.seat (.other n) = .slot →
      Step (.releaseOther n) (r.free mail (.other n))
  | closePool : Step .closePool r.closePool

variable {mail r} {s : Office} {m : Move} {moves : List Move} {id : String}

theorem traffic_hear : (r.hear id).traffic = r.traffic := by
  unfold hear
  split <;> rfl

theorem exists_of_onTraffic {m : Traffic.Move} (h : r.onTraffic m = some s) :
    ∃ t, r.traffic.step? m = some t ∧ s = { r with traffic := t } := by
  obtain ⟨t, ht, rfl⟩ := Option.map_eq_some_iff.1 h
  exact ⟨t, ht, rfl⟩

theorem step_of_step? (h : r.step? mail m = some s) : r.Step mail m s := by
  cases m with
  | traffic m =>
    simp only [step?] at h
    split at h
    · rename_i hm
      obtain ⟨t, ht, rfl⟩ := exists_of_onTraffic h
      exact .traffic hm.1 hm.2 ht
    · cases h
  | submit id =>
    simp only [step?] at h
    split at h
    · rename_i hjob hturn
      cases h
      exact .submit hjob hturn
    · cases h
  | receive id =>
    simp only [step?] at h
    split at h
    · rename_i i rest hturn
      cases h
      exact .receive hturn
    · cases h
  | handOver id =>
    simp only [step?] at h
    split at h
    · rename_i payload hturn
      obtain ⟨t, ht, rfl⟩ := exists_of_onTraffic h
      exact .handOver hturn ht
    · cases h
  | endJob id =>
    obtain ⟨t, ht, rfl⟩ := exists_of_onTraffic h
    exact .endJob ht
  | turnAway id =>
    simp only [step?] at h
    split at h
    · rename_i hturn
      obtain ⟨t, ht, rfl⟩ := exists_of_onTraffic h
      exact .turnAway hturn ht
    · cases h
  | join id =>
    obtain ⟨t, ht, rfl⟩ := exists_of_onTraffic h
    rw [traffic_hear] at ht
    exact .join ht
  | expire id =>
    obtain ⟨t, ht, rfl⟩ := exists_of_onTraffic h
    exact .expire ht
  | elapse time =>
    cases h
    exact .elapse time
  | submitOther n =>
    simp only [step?] at h
    split at h
    · rename_i hseat
      cases h
      exact .submitOther hseat
    · cases h
  | releaseOther n =>
    simp only [step?] at h
    split at h
    · rename_i hseat
      cases h
      exact .releaseOther hseat
    · cases h
  | closePool =>
    cases h
    exact .closePool

end Office

/-! ## Requests and their jobs -/

/-- What holds of a request, of its job, and of its place at a pool that is open or not. -/
inductive Placed (mail : Mail) (k : Consumer) (isOpen : Bool) (id : String) :
    Turn → JobState → List Event → Seat → Prop
  /-- The request has not been let in. -/
  | unlet : Placed mail k isOpen id .unplaced .unsubmitted [] .away
  | unplaced : Placed mail k isOpen id .unplaced .submitted [] .away
  | inLine : Placed mail k isOpen id .inLine .submitted [] .inLine
  | reading {i rest} : i.reads rest = mail.payload id →
      Placed mail k isOpen id (.reading i rest) .submitted [] .slot
  | read : Placed mail k isOpen id (.read (mail.payload id)) .submitted [] .slot
  | handed : Placed mail k isOpen id .handed (.ran (mail.outcome id)) (mail.event? id).toList .slot
  | ended : Placed mail k isOpen id .handed (.ended (mail.ending k id))
      (mail.event? id).toList .away
  | skipped : isOpen = false → Placed mail k isOpen id .skipped .submitted [] .away
  | turnedAway : isOpen = false → Placed mail k isOpen id .skipped (.ended .turnedAway) [] .away

namespace Placed

variable {mail : Mail} {k : Consumer} {isOpen : Bool} {id : String} {turn : Turn} {job : JobState}
  {events : List Event} {seat : Seat}

/-- A pool that is closed does nothing to jobs that are not in line. -/
theorem close (h : Placed mail k isOpen id turn job events seat) :
    Placed mail k false id turn job events seat := by
  cases h with
  | unlet => exact .unlet
  | unplaced => exact .unplaced
  | inLine => exact .inLine
  | reading hreads => exact .reading hreads
  | read => exact .read
  | handed => exact .handed
  | ended => exact .ended
  | skipped => exact .skipped rfl
  | turnedAway => exact .turnedAway rfl

/-- A request that has not been let in has no job. -/
theorem of_unsubmitted (h : Placed mail k isOpen id turn .unsubmitted events seat) :
    turn = .unplaced ∧ events = [] ∧ seat = .away := by
  cases h
  exact ⟨rfl, rfl, rfl⟩

theorem of_unplaced (h : Placed mail k isOpen id .unplaced job events seat) :
    events = [] ∧ seat = .away := by
  cases h <;> exact ⟨rfl, rfl⟩

theorem of_inLine (h : Placed mail k isOpen id turn job events .inLine) :
    turn = .inLine ∧ job = .submitted ∧ events = [] := by
  cases h
  exact ⟨rfl, rfl, rfl⟩

theorem of_reading {i : Intake} {rest : Body}
    (h : Placed mail k isOpen id (.reading i rest) job events seat) :
    i.reads rest = mail.payload id ∧ job = .submitted ∧ events = [] ∧ seat = .slot := by
  cases h with
  | reading hreads => exact ⟨hreads, rfl, rfl, rfl⟩

theorem of_read {payload : Except Fault String}
    (h : Placed mail k isOpen id (.read payload) job events seat) :
    payload = mail.payload id ∧ job = .submitted ∧ events = [] ∧ seat = .slot := by
  cases h
  exact ⟨rfl, rfl, rfl, rfl⟩

theorem of_ran {outcome : DispatchOutcome}
    (h : Placed mail k isOpen id turn (.ran outcome) events seat) :
    turn = .handed ∧ outcome = mail.outcome id ∧ events = (mail.event? id).toList ∧
      seat = .slot := by
  cases h
  exact ⟨rfl, rfl, rfl, rfl⟩

theorem of_skipped (h : Placed mail k isOpen id .skipped job events seat) :
    isOpen = false ∧ events = [] ∧ seat = .away := by
  cases h with
  | skipped hclosed | turnedAway hclosed => exact ⟨hclosed, rfl, rfl⟩

end Placed

/-- Only jobs go on and hand events over, but a request that is let in has a new job. -/
theorem Standing.Step.job_of_not_isOfJob {id : String} {isOpen : Bool} {k : Consumer}
    {s s' : Standing} {m : Traffic.Move} (hs : Step id isOpen k s m s') (hm : m.isOfJob = false)
    (hquiet : s.Quiet) :
    s'.events = s.events ∧ (s'.job = s.job ∨ s.job = .unsubmitted ∧ s'.job = .submitted) := by
  cases hs with
  | handOver | endJob | turnAway => cases hm
  | letIn _ hphase => exact ⟨rfl, .inr ⟨(hquiet (.inr hphase)).1, rfl⟩⟩
  | _ => exact ⟨rfl, .inl rfl⟩

namespace Office

variable {mail : Mail} {r s : Office} {m : Move} {moves : List Move} {id id' : String}

/-- What holds of a request of a source at work. -/
def PlacedAt (mail : Mail) (r : Office) (id : String) : Prop :=
  Placed mail r.traffic.exchange.consumer r.pool.isOpen id (r.turn id) (r.job id)
    (r.traffic.eventsOf id) (r.seat id)

/-- What holds of a source at work. -/
structure Kept (mail : Mail) (r : Office) : Prop where
  tidy : r.traffic.Tidy
  pool : r.pool.Orderly
  distinct : r.pool.Distinct
  placed : ∀ id, r.PlacedAt mail id

theorem kept_fresh (mail : Mail) (attributes : List String) (k : Consumer) (size : Nat) :
    (fresh attributes k size).Kept mail where
  tidy := Traffic.tidy_fresh attributes k
  pool := Pool.orderly_idle size
  distinct := List.nodup_nil
  placed _ := .unlet

/-! ### Steps that no job takes -/

/-- Calls, replies, timers and the end of an exchange leave all jobs where they are. -/
theorem Kept.traffic {t : Traffic} {m : Traffic.Move} (h : r.Kept mail) (hm : m.isOfJob = false)
    (ht : r.traffic.step? m = some t) : Kept mail { r with traffic := t } where
  tidy := Traffic.tidy_step h.tidy ht
  pool := h.pool
  distinct := h.distinct
  placed id := by
    have hplaced := h.placed id
    unfold PlacedAt at hplaced ⊢
    show Placed mail t.exchange.consumer r.pool.isOpen id (r.turn id) (t.standing id).job
      (t.standing id).events (r.seat id)
    rw [Traffic.consumer_step ht]
    rcases Traffic.standing_step ht id with he | hs
    · rw [he]
      exact hplaced
    · obtain ⟨hevents, hjob | ⟨hnone, hjob⟩⟩ := hs.job_of_not_isOfJob hm (h.tidy.2 id)
      · rw [hevents, hjob]
        exact hplaced
      · change r.job id = .unsubmitted at hnone
        rw [hnone] at hplaced
        obtain ⟨hturn, hnil, hseat⟩ := hplaced.of_unsubmitted
        rw [hevents.trans hnil, hjob, hturn, hseat]
        exact .unplaced

/-! ### Steps of one job -/

/-- A step that moves a single job on, and leaves the pool alone. -/
theorem Kept.moved (h : r.Kept mail) {t : Traffic} {turn : Turn} (htidy : t.Tidy)
    (hconsumer : t.exchange.consumer = r.traffic.exchange.consumer)
    (hothers : ∀ id', id' ≠ id → t.standing id' = r.traffic.standing id')
    (hid : Placed mail r.traffic.exchange.consumer r.pool.isOpen id turn (t.record.job id)
      (t.eventsOf id) (r.seat id)) :
    Kept mail { r.setTurn id turn with traffic := t } where
  tidy := htidy
  pool := h.pool
  distinct := h.distinct
  placed id' := by
    unfold PlacedAt
    show Placed mail t.exchange.consumer r.pool.isOpen id' (Function.update r.turn id turn id')
      (t.standing id').job (t.standing id').events (r.seat id')
    rw [hconsumer]
    by_cases hne : id' = id
    · subst hne
      rw [Function.update_self]
      exact hid
    · rw [Function.update_of_ne hne, hothers id' hne]
      exact h.placed id'

/-- A piece of a body arrives. -/
theorem Kept.receive (h : r.Kept mail) {i : Intake} {rest : Body}
    (hturn : r.turn id = .reading i rest) : (r.setTurn id (.next i rest)).Kept mail := by
  have hplaced := h.placed id
  unfold PlacedAt at hplaced
  rw [hturn] at hplaced
  obtain ⟨hreads, hjob, hevents, hseat⟩ := hplaced.of_reading
  refine h.moved (t := r.traffic) h.tidy rfl (fun _ _ => rfl) ?_
  change r.traffic.record.job id = _ at hjob
  rw [hjob, hevents, hseat]
  rcases Turn.next_cases i rest with hnext | ⟨i', piece, rest', -, hnext, hreads'⟩
  · rw [hnext, hreads]
    exact .read
  · rw [hnext]
    exact .reading (hreads'.trans hreads)

/-- An event is handed over, if there is one. -/
theorem Kept.handOver (h : r.Kept mail) {payload : Except Fault String} {t : Traffic}
    (hturn : r.turn id = .read payload)
    (ht : r.traffic.step? (.handOver id (mail.dispatch id) payload) = some t) :
    Kept mail { r.setTurn id .handed with traffic := t } := by
  have hplaced := h.placed id
  unfold PlacedAt at hplaced
  rw [hturn] at hplaced
  obtain ⟨rfl, -, hevents, hseat⟩ := hplaced.of_read
  have hstanding := fun id' => (Traffic.standing_handOver ht id').2
  refine h.moved (Traffic.tidy_step h.tidy ht) (Traffic.consumer_step ht)
    (fun id' hne => (hstanding id').trans (if_neg hne)) ?_
  have hs := (hstanding id).trans (if_pos rfl)
  have hjob : t.record.job id = .ran (mail.outcome id) := congrArg Standing.job hs
  have hhanded : t.eventsOf id = (mail.event? id).toList := by
    refine (congrArg Standing.events hs).trans ?_
    show r.traffic.eventsOf id ++ _ = _
    rw [hevents, List.nil_append, mail.event?_eq]
  rw [hjob, hhanded, hseat]
  exact .handed

/-- A job that has no slot is turned away. -/
theorem Kept.turnAway (h : r.Kept mail) {t : Traffic} (hturn : r.turn id = .skipped)
    (ht : r.traffic.step? (.turnAway id) = some t) : Kept mail { r with traffic := t } := by
  have hplaced := h.placed id
  unfold PlacedAt at hplaced
  rw [hturn] at hplaced
  obtain ⟨hclosed, hevents, hseat⟩ := hplaced.of_skipped
  have hstanding := fun id' => (Traffic.standing_turnAway ht id').2
  have hs := (hstanding id).trans (if_pos rfl)
  have hjob : t.record.job id = .ended .turnedAway := congrArg Standing.job hs
  have hevents' : t.eventsOf id = [] := (congrArg Standing.events hs).trans hevents
  have hmoved : Kept mail { r.setTurn id (r.turn id) with traffic := t } := by
    refine h.moved (Traffic.tidy_step h.tidy ht) (Traffic.consumer_step ht)
      (fun id' hne => (hstanding id').trans (if_neg hne)) ?_
    rw [hturn, hjob, hevents', hseat]
    exact .turnedAway hclosed
  unfold setTurn at hmoved
  rw [Function.update_eq_self] at hmoved
  exact hmoved

/-! ### Steps at the pool -/

theorem placed_admitted {k : Consumer} {isOpen : Bool} {admission : Admission}
    (h : admission = .refused → isOpen = false) :
    Placed mail k isOpen id (admitted mail id admission) .submitted [] admission.seat := by
  cases admission with
  | started => exact .reading rfl
  | queued => exact .inLine
  | refused => exact .skipped (h rfl)

/-- The job of a request asks for a slot. -/
theorem Kept.submit (h : r.Kept mail) (hjob : r.job id = .submitted)
    (hturn : r.turn id = .unplaced) :
    Kept mail ({ r with pool := (r.pool.submit (.own id)).1 }.setTurn id
      (admitted mail id (r.pool.submit (.own id)).2)) := by
  have hplaced := h.placed id
  unfold PlacedAt at hplaced
  rw [hturn] at hplaced
  obtain ⟨hevents, haway⟩ := hplaced.of_unplaced
  have hsubmission := h.pool.submission (.own id)
  refine ⟨h.tidy, h.pool.submit _, hsubmission.distinct haway h.distinct, fun id' => ?_⟩
  have hseat := hsubmission.seat haway (.own id')
  unfold PlacedAt
  show Placed mail _ (r.pool.submit (.own id)).1.isOpen id' (Function.update r.turn id _ id')
    (r.job id') (r.traffic.eventsOf id') ((r.pool.submit (.own id)).1.seat (.own id'))
  rw [hsubmission.isOpen_eq, hseat]
  by_cases hne : id' = id
  · subst hne
    rw [Function.update_self, if_pos rfl, hjob, hevents]
    exact placed_admitted hsubmission.closed
  · have hne' : Errand.own id' ≠ .own id := fun he => hne (Errand.own.inj he)
    rw [Function.update_of_ne hne, if_neg hne']
    exact h.placed id'

/-- Some other job asks for a slot. -/
theorem Kept.submitOther (h : r.Kept mail) {n : Nat} (haway : r.pool.seat (.other n) = .away) :
    Kept mail { r with pool := (r.pool.submit (.other n)).1 } := by
  have hsubmission := h.pool.submission (.other n)
  refine ⟨h.tidy, h.pool.submit _, hsubmission.distinct haway h.distinct, fun id => ?_⟩
  have hseat := hsubmission.seat haway (.own id)
  unfold PlacedAt
  show Placed mail _ (r.pool.submit (.other n)).1.isOpen id (r.turn id) (r.job id)
    (r.traffic.eventsOf id) ((r.pool.submit (.other n)).1.seat (.own id))
  rw [hsubmission.isOpen_eq, hseat, if_neg Errand.noConfusion]
  exact h.placed id

/-- A slot that becomes free is taken by a request that was in line, and nothing happens to any
other one. -/
theorem Kept.placedAt_free (h : r.Kept mail) {e : Errand} (he : e ∈ r.pool.running)
    (hne : .own id ≠ e) : (r.free mail e).PlacedAt mail id := by
  have hhandover := h.pool.handover he
  have hseat := hhandover.seat h.distinct he (.own id)
  have hplaced := h.placed id
  unfold PlacedAt at hplaced ⊢
  show Placed mail _ (r.pool.release e).1.isOpen id
    (if (r.pool.release e).2 = some (.own id) then begun mail id else r.turn id) (r.job id)
    (r.traffic.eventsOf id) ((r.pool.release e).1.seat (.own id))
  rw [hhandover.isOpen_eq, hseat]
  by_cases hnext : (r.pool.release e).2 = some (.own id)
  · have hwas : r.seat id = .inLine := hhandover.inLine h.distinct hnext
    rw [hwas] at hplaced
    obtain ⟨-, hjob, hevents⟩ := hplaced.of_inLine
    rw [if_pos hnext, if_pos hnext, hevents, hjob]
    exact .reading rfl
  · rw [if_neg hnext, if_neg hnext, if_neg hne]
    exact hplaced

/-- Some other job ends. -/
theorem Kept.releaseOther (h : r.Kept mail) {n : Nat} (hseat : r.pool.seat (.other n) = .slot) :
    (r.free mail (.other n)).Kept mail := by
  have he := Pool.seat_eq_slot.1 hseat
  exact ⟨h.tidy, h.pool.release he, (h.pool.handover he).distinct h.distinct,
    fun id => h.placedAt_free he Errand.noConfusion⟩

/-- The job of a request ends. -/
theorem Kept.endJob (h : r.Kept mail) {t : Traffic} (ht : r.traffic.step? (.endJob id) = some t) :
    Kept mail { r.free mail (.own id) with traffic := t } := by
  obtain ⟨outcome, hran, -⟩ := Traffic.standing_endJob ht id
  have hplaced := h.placed id
  unfold PlacedAt at hplaced
  change r.job id = .ran outcome at hran
  rw [hran] at hplaced
  obtain ⟨hturn, rfl, hevents, hslot⟩ := hplaced.of_ran
  have he : Errand.own id ∈ r.pool.running := Pool.seat_eq_slot.1 hslot
  have hhandover := h.pool.handover he
  refine ⟨Traffic.tidy_step h.tidy ht, h.pool.release he, hhandover.distinct h.distinct,
    fun id' => ?_⟩
  obtain ⟨outcome, hran', hs⟩ := Traffic.standing_endJob ht id'
  cases hran.symm.trans hran'
  unfold PlacedAt
  show Placed mail t.exchange.consumer (r.pool.release (.own id)).1.isOpen id'
    (if (r.pool.release (.own id)).2 = some (.own id') then begun mail id' else r.turn id')
    (t.standing id').job (t.standing id').events ((r.pool.release (.own id)).1.seat (.own id'))
  rw [Traffic.consumer_step ht, hs]
  by_cases hne : id' = id
  · subst hne
    -- whoever is next was in line, and this one was not
    have hnext : (r.pool.release (.own id')).2 ≠ some (.own id') := fun hnext =>
      Seat.noConfusion (hslot.symm.trans (hhandover.inLine h.distinct hnext))
    rw [hhandover.seat h.distinct he, if_neg hnext, if_neg hnext, if_pos rfl, if_pos rfl, hturn]
    show Placed mail _ _ id' _ _ (r.traffic.eventsOf id') _
    rw [Mail.ending_of_events hevents, hevents]
    exact .ended
  · rw [if_neg hne]
    exact h.placedAt_free he fun he => hne (Errand.own.inj he)

/-- The pool is closed. -/
theorem Kept.closePool (h : r.Kept mail) : r.closePool.Kept mail := by
  refine ⟨h.tidy, h.pool.close, h.distinct.close, fun id => ?_⟩
  have hseat := Pool.seat_close h.distinct (.own id)
  have hplaced := h.placed id
  unfold PlacedAt at hplaced ⊢
  show Placed mail _ false id (if .own id ∈ r.pool.line then .skipped else r.turn id) (r.job id)
    (r.traffic.eventsOf id) (r.pool.close.1.seat (.own id))
  rw [hseat]
  by_cases hline : .own id ∈ r.pool.line
  · have hwas : r.seat id = .inLine := h.distinct.seat_eq_inLine.2 hline
    rw [hwas] at hplaced
    obtain ⟨-, hjob, hevents⟩ := hplaced.of_inLine
    rw [if_pos hline, if_pos hline, hjob, hevents]
    exact .skipped rfl
  · rw [if_neg hline, if_neg hline]
    exact hplaced.close

/-- Every step keeps what holds of a source at work. -/
theorem kept_step (h : r.Kept mail) (hs : r.step? mail m = some s) : s.Kept mail := by
  cases step_of_step? hs with
  | traffic hjob _ ht => exact h.traffic hjob ht
  | submit hjob hturn => exact h.submit hjob hturn
  | receive hturn => exact h.receive hturn
  | handOver hturn ht => exact h.handOver hturn ht
  | endJob ht => exact h.endJob ht
  | turnAway hturn ht => exact h.turnAway hturn ht
  | @join id t ht =>
    unfold hear
    split
    · exact { h.traffic rfl ht with }
    · exact h.traffic rfl ht
  | expire ht => exact h.traffic rfl ht
  | elapse time => exact { h with }
  | submitOther haway => exact h.submitOther haway
  | releaseOther hslot => exact h.releaseOther hslot
  | closePool => exact h.closePool

/-- **What holds of a source at work holds in all runs**: every request is where its job is, and
the events that were handed over are those of the jobs that have run. -/
theorem kept_run (h : r.Kept mail) (hs : r.run? mail moves = some s) : s.Kept mail :=
  foldlM_induction kept_step h hs

end Office

end Correlator
