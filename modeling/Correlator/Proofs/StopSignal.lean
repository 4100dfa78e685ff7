import Mathlib.Algebra.GroupWithZero.Nat
import Mathlib.Data.List.Induction
import Correlator.StopSignal

/-!
# Waiting tasks and receivers of a stop signal

A signal is triggered any number of times, while tasks wait for it and receivers ask for what they
have not been told yet. Nobody is told twice of one trigger, and no trigger is left out of account.

* `StopSignal.Move`, `StopSignal.Record`: what is done with a signal, and what receivers were told.
  A waiting task may go on at once (`Move.trigger`) or some time later (`Move.send`, `Move.rouse`).
* `StopSignal.next_sums`: one answer, and what is pending after it.
* `StopSignal.Awaits`, `StopSignal.Awaits.step`: what a waiting task has come to by the moves since
  it began.
* `StopSignal.Follows`, `StopSignal.Follows.step`: what a receiver has been told of the triggers
  since it subscribed.
* `StopSignal.taken_add_room_step`: of what is pending a receiver can still be told one trigger.
* **`StopSignal.accounted_of_moves`**: which tasks have ended, and where every trigger went.
-/

namespace Correlator

/-- The number of triggers that a reception hands on. -/
def Reception.taken : Reception → Nat
  | .triggered => 1
  | _ => 0

/-- The number of triggers that a reception says were missed. -/
def Reception.missed : Reception → Nat
  | .lagged n => n
  | _ => 0

namespace StopSignal

variable {s : StopSignal} {sent seen i j : Nat}

/-! ## Answers -/

theorem next_of_le (h : sent ≤ seen) : next sent seen = (.nothing, seen) := if_pos h

theorem next_succ (seen : Nat) : next (seen + 1) seen = (.triggered, seen + 1) := by
  unfold next kept
  rw [if_neg (by omega), if_neg (by omega)]

theorem next_of_lt (h : seen + 1 < sent) :
    next sent seen = (.lagged (sent - seen - 1), sent - 1) := by
  unfold next kept
  rw [if_neg (by omega), if_pos (by omega)]

theorem next_eq_nothing_iff : (next sent seen).1 = .nothing ↔ sent ≤ seen := by
  constructor
  · intro h
    by_contra hlt
    rcases Nat.lt_or_eq_of_le (Nat.succ_le_of_lt (Nat.lt_of_not_le hlt)) with hlag | rfl
    · rw [next_of_lt hlag] at h
      cases h
    · rw [next_succ] at h
      cases h
  · intro h
    rw [next_of_le h]

/-- **One answer.** What was pending is handed on, is said to have been missed, or is pending still;
and of what is pending one trigger can be handed on, if there is any. -/
theorem next_sums (sent seen : Nat) :
    seen ≤ (next sent seen).2 ∧ (seen ≤ sent → (next sent seen).2 ≤ sent) ∧
      sent - seen = (next sent seen).1.taken + (next sent seen).1.missed +
        (sent - (next sent seen).2) ∧
      min 1 (sent - seen) = (next sent seen).1.taken + min 1 (sent - (next sent seen).2) := by
  rcases Nat.lt_trichotomy sent (seen + 1) with h | rfl | h
  · rw [next_of_le (Nat.le_of_lt_succ h)]
    simp [Reception.taken, Reception.missed]
  · rw [next_succ]
    simp [Reception.taken, Reception.missed]
  · rw [next_of_lt h]
    simp only [Reception.taken, Reception.missed]
    omega

/-! ## Moves -/

/-- What is done with a signal. -/
inductive Move
  | wait
  | abort (i : Nat)
  | subscribe
  | unsubscribe (i : Nat)
  | receive (i : Nat)
  /-- A trigger, after which every waiting task goes on at once. -/
  | trigger
  /-- A trigger of which no waiting task has heard yet. -/
  | send
  /-- A waiting task goes on, if it has anything to go on for. -/
  | rouse (i : Nat)
  deriving DecidableEq

/-- The number of triggers that a move makes. -/
def Move.triggers : Move → Nat
  | .trigger | .send => 1
  | _ => 0

/-- The number of triggers among some moves. -/
def triggers (moves : List Move) : Nat := (moves.map Move.triggers).sum

/-- A trigger of which no waiting task has heard yet. -/
def send (s : StopSignal) : StopSignal := { s with sent := s.sent + 1 }

/-- What a waiting task is after it was told of whatever there is. -/
def heard (sent : Nat) (w? : Option Nat) : Option Nat :=
  w?.bind fun seen => if (next sent seen).1 = .nothing then some seen else none

/-- One waiting task goes on. -/
def rouse (s : StopSignal) (i : Nat) : StopSignal :=
  { s with waiters := s.waiters.modify i (heard s.sent) }

/-- The number of triggers that a receiver has not been told of. -/
def pending (s : StopSignal) (i : Nat) : Nat :=
  match s.receivers[i]? with
  | some (some seen) => s.sent - seen
  | _ => 0

/-- A signal, with all that its receivers were told, by their numbers. -/
structure Record where
  signal : StopSignal
  told : List (Nat × Reception)

namespace Record

/-- Nothing has been done. -/
def new : Record := ⟨.new, []⟩

/-- One move. -/
def step (r : Record) : Move → Record
  | .wait => { r with signal := r.signal.wait }
  | .abort i => { r with signal := r.signal.abort i }
  | .subscribe => { r with signal := r.signal.subscribe }
  | .unsubscribe i => { r with signal := r.signal.unsubscribe i }
  | .receive i =>
    let (told, signal) := r.signal.receive i
    ⟨signal, r.told ++ [(i, told)]⟩
  | .trigger => { r with signal := r.signal.trigger }
  | .send => { r with signal := r.signal.send }
  | .rouse i => { r with signal := r.signal.rouse i }

/-- One number for each reception of a receiver, summed. -/
def total (r : Record) (f : Reception → Nat) (i : Nat) : Nat :=
  ((r.told.filter fun e => e.1 = i).map fun e => f e.2).sum

/-- The number of triggers that were handed on to a receiver. -/
def taken (r : Record) (i : Nat) : Nat := r.total Reception.taken i

/-- The number of triggers that a receiver was told it had missed. -/
def missed (r : Record) (i : Nat) : Nat := r.total Reception.missed i

end Record

/-- A signal with its record, after some moves. -/
def recorded (moves : List Move) : Record := moves.foldl Record.step .new

variable {r : Record} {m : Move} {moves before later : List Move}

theorem recorded_append (moves more : List Move) :
    recorded (moves ++ more) = more.foldl Record.step (recorded moves) := List.foldl_append

theorem recorded_snoc (moves : List Move) (m : Move) :
    recorded (moves ++ [m]) = (recorded moves).step m := recorded_append moves [m]

theorem triggers_snoc (moves : List Move) (m : Move) :
    triggers (moves ++ [m]) = triggers moves + m.triggers := by
  simp [triggers]

/-- The next thing that is said, to whomever. -/
theorem Record.total_snoc (signal : StopSignal) (told : List (Nat × Reception)) (j : Nat)
    (x : Reception) (f : Reception → Nat) (i : Nat) :
    total ⟨signal, told ++ [(j, x)]⟩ f i =
      total ⟨signal, told⟩ f i + if j = i then f x else 0 := by
  by_cases hj : j = i <;> simp [total, hj]

/-! ## Waiting tasks -/

theorem heard_some (sent seen : Nat) :
    heard sent (some seen) = if sent ≤ seen then some seen else none := by
  simp [heard, next_eq_nothing_iff]

theorem waiters_receive (s : StopSignal) (j : Nat) : (s.receive j).2.waiters = s.waiters := by
  unfold receive
  split <;> rfl

theorem sent_receive (s : StopSignal) (j : Nat) : (s.receive j).2.sent = s.sent := by
  unfold receive
  split <;> rfl

theorem waiters_settle (s : StopSignal) : s.settle.waiters = s.waiters.map (heard s.sent) := rfl

/-- A trigger that every waiting task hears of at once. -/
theorem trigger_eq (s : StopSignal) : s.trigger = s.send.settle := rfl

theorem done_settle (s : StopSignal) (i : Nat) :
    s.settle.done[i]? = s.waiters[i]?.map fun w? => (heard s.sent w?).isNone := by
  rw [done, waiters_settle, List.getElem?_map, List.getElem?_map, Option.map_map]
  rfl

/-- What one move makes of a waiting task. -/
def Move.onWaiter (sent i : Nat) (w? : Option Nat) : Move → Option Nat
  | .abort j => if j = i then none else w?
  | .trigger => heard (sent + 1) w?
  | .rouse j => if j = i then heard sent w? else w?
  | _ => w?

theorem sent_step (r : Record) (m : Move) :
    (r.step m).signal.sent = r.signal.sent + m.triggers := by
  cases m with
  | receive j => exact sent_receive _ j
  | _ => rfl

theorem waiters_step {w? : Option Nat} (hw : r.signal.waiters[i]? = some w?) (m : Move) :
    (r.step m).signal.waiters[i]? = some (m.onWaiter r.signal.sent i w?) := by
  obtain ⟨hlength, hget⟩ := List.getElem?_eq_some_iff.1 hw
  cases m with
  | wait => exact (List.getElem?_append_left hlength).trans hw
  | abort j =>
    by_cases hj : j = i <;> simp [Record.step, abort, Move.onWaiter, hj, hlength, hget]
  | receive j => exact (congrArg (·[i]?) (waiters_receive _ j)).trans hw
  | trigger =>
    simp only [Record.step, trigger_eq, waiters_settle, List.getElem?_map]
    exact congrArg (Option.map _) hw
  | rouse j =>
    by_cases hj : j = i <;>
      simp [Record.step, rouse, Move.onWaiter, hj, hlength, hget]
  | subscribe | unsubscribe | send => exact hw

/-- What a waiting task has come to by the moves since it began. Where tasks go on at once it does
not wait on once there was a trigger. -/
inductive Awaits (i : Nat) (later : List Move) (r : Record) : Prop
  | ended : r.signal.waiters[i]? = some none → .abort i ∈ later ∨ 0 < triggers later →
    Awaits i later r
  | waits (seen : Nat) : r.signal.waiters[i]? = some (some seen) → .abort i ∉ later →
    seen + triggers later = r.signal.sent → (.send ∉ later → triggers later = 0) →
    Awaits i later r

namespace Awaits

/-- A task that goes on has ended if there was a trigger, and waits on otherwise. -/
theorem of_heard {seen : Nat}
    (hw : r.signal.waiters[i]? = some (heard r.signal.sent (some seen)))
    (habort : .abort i ∉ later) (hsent : seen + triggers later = r.signal.sent) :
    Awaits i later r := by
  rw [heard_some] at hw
  split at hw
  · exact .waits seen hw habort hsent fun _ => by omega
  · exact .ended hw (.inr (by omega))

theorem step (h : Awaits i later r) (m : Move) : Awaits i (later ++ [m]) (r.step m) := by
  cases h with
  | ended hw hended =>
    have hnone : m.onWaiter r.signal.sent i none = none := by
      cases m <;> simp [Move.onWaiter, heard]
    refine .ended ((waiters_step hw m).trans (congrArg some hnone)) ?_
    rw [triggers_snoc]
    exact hended.imp (List.mem_append_left _) (by omega)
  | waits seen hw habort hsent hnone =>
    have hw' := waiters_step hw m
    have hsent' : seen + triggers (later ++ [m]) = (r.step m).signal.sent := by
      rw [triggers_snoc, sent_step]
      omega
    -- whatever is neither a trigger nor meant for this task
    have hkept (hsame : m.onWaiter r.signal.sent i (some seen) = some seen) (hm : m ≠ .abort i)
        (hquiet : m.triggers = 0) : Awaits i (later ++ [m]) (r.step m) := by
      refine .waits seen (hsame ▸ hw') (by simp [habort, hm.symm]) hsent' fun hnosend => ?_
      rw [triggers_snoc, hquiet]
      exact hnone fun hsend => hnosend (List.mem_append_left _ hsend)
    cases m with
    | wait | subscribe | unsubscribe | receive => exact hkept rfl nofun rfl
    | abort j =>
      by_cases hj : j = i
      · subst hj
        exact .ended (hw'.trans (congrArg some (if_pos rfl))) (.inl (by simp))
      · exact hkept (if_neg hj) (by simpa using hj) rfl
    | trigger => exact of_heard hw' (by simp [habort]) hsent'
    | send => exact .waits seen hw' (by simp [habort]) hsent' (by simp)
    | rouse j =>
      by_cases hj : j = i
      · subst hj
        refine of_heard (hw'.trans (congrArg some (if_pos rfl))) (by simp [habort]) hsent'
      · exact hkept (if_neg hj) nofun rfl

/-- Once every waiting task has gone on, those have ended that were aborted or began before a
trigger; and if tasks go on at once, it was so already. -/
theorem done_eq (h : Awaits i later r) :
    r.signal.settle.done[i]? = some (decide (.abort i ∈ later ∨ 0 < triggers later)) ∧
      (.send ∉ later → r.signal.done[i]? = r.signal.settle.done[i]?) := by
  rw [done_settle, done, List.getElem?_map]
  cases h with
  | ended hw hended =>
    rw [hw, decide_eq_true hended]
    exact ⟨rfl, fun _ => rfl⟩
  | waits seen hw habort hsent hnone =>
    rw [hw]
    refine ⟨?_, fun hnosend => ?_⟩
    · rw [Option.map_some, heard_some]
      by_cases hzero : triggers later = 0
      · simp [habort, hzero, show r.signal.sent ≤ seen by omega]
      · simp [Nat.pos_of_ne_zero hzero, show ¬ r.signal.sent ≤ seen by omega]
    · have hzero := hnone hnosend
      simp [heard_some, show r.signal.sent ≤ seen by omega]

end Awaits

/-- A new task waits for the triggers that are still to come. -/
theorem awaits_wait (r : Record) : Awaits r.signal.waiters.length [] (r.step .wait) :=
  .waits r.signal.sent (by simp [Record.step, wait]) nofun rfl fun _ => rfl

theorem length_waiters_recorded (moves : List Move) :
    (recorded moves).signal.waiters.length = moves.count .wait := by
  induction moves using List.reverseRecOn with
  | nil => rfl
  | append_singleton moves m ih =>
    rw [recorded_snoc, List.count_append, ← ih]
    cases m <;>
      simp [Record.step, wait, abort, subscribe, unsubscribe, waiters_receive, trigger_eq,
        waiters_settle, send, rouse]

/-- Whatever the moves, before and after it began. -/
theorem awaits_recorded (before later : List Move) :
    Awaits (before.count .wait) later (recorded (before ++ .wait :: later)) := by
  -- on the moves since it began, last move first
  induction later using List.reverseRecOn with
  | nil =>
    rw [recorded_snoc, ← length_waiters_recorded]
    exact awaits_wait _
  | append_singleton later m ih =>
    rw [← List.cons_append, ← List.append_assoc, recorded_snoc]
    exact ih.step m

/-! ## Receivers -/

theorem receive_of_some (hr : s.receivers[i]? = some (some seen)) :
    s.receive i = ((next s.sent seen).1,
      { s with receivers := s.receivers.set i (some (next s.sent seen).2) }) := by
  rw [receive, hr]

theorem receive_of_not_some (hr : ∀ seen, s.receivers[i]? ≠ some (some seen)) :
    s.receive i = (.closed, s) := by
  unfold receive
  split
  · next seen hseen => exact absurd hseen (hr seen)
  · rfl

/-- What one move makes of a receiver. -/
def Move.onReceiver (sent i : Nat) (r? : Option Nat) : Move → Option Nat
  | .unsubscribe j => if j = i then none else r?
  | .receive j => if j = i then r?.map fun seen => (next sent seen).2 else r?
  | _ => r?

theorem receivers_step {r? : Option Nat} (hr : r.signal.receivers[i]? = some r?) (m : Move) :
    (r.step m).signal.receivers[i]? = some (m.onReceiver r.signal.sent i r?) := by
  obtain ⟨hlength, hget⟩ := List.getElem?_eq_some_iff.1 hr
  cases m with
  | subscribe => exact (List.getElem?_append_left hlength).trans hr
  | unsubscribe j =>
    by_cases hj : j = i <;>
      simp [Record.step, unsubscribe, Move.onReceiver, hj, hlength, hget]
  | receive j =>
    simp only [Record.step, Move.onReceiver]
    by_cases hj : j = i
    · subst hj
      cases r? with
      | none => simp [receive_of_not_some (s := r.signal) (i := j) (by simp [hr]), hr]
      | some seen => simp [receive_of_some hr, hlength]
    · unfold receive
      split <;> simp [hj, hr]
  | wait | abort | trigger | send | rouse => exact hr

/-- What a receiver is told by one move, counted in some way. -/
theorem total_step (r : Record) (m : Move) (f : Reception → Nat) (i : Nat) :
    (r.step m).total f i =
      r.total f i + if m = .receive i then f (r.signal.receive i).1 else 0 := by
  cases m with
  | receive j =>
    simp only [Record.step, Record.total_snoc, Move.receive.injEq]
    by_cases hj : j = i
    · subst hj
      simp [Record.total]
    · simp [Record.total, hj]
  | _ => rfl

/-- What a receiver has been told by the moves since it subscribed: while it is there, every trigger
was handed on, is said to have been missed, or is pending. -/
inductive Follows (i : Nat) (later : List Move) (r : Record) : Prop
  | gone : r.signal.receivers[i]? = some none → .unsubscribe i ∈ later → Follows i later r
  | follows (seen : Nat) : r.signal.receivers[i]? = some (some seen) → .unsubscribe i ∉ later →
    seen ≤ r.signal.sent →
    triggers later = r.taken i + r.missed i + (r.signal.sent - seen) → Follows i later r

theorem Follows.step (h : Follows i later r) (m : Move) :
    Follows i (later ++ [m]) (r.step m) := by
  cases h with
  | gone hr hgone =>
    have hnone : m.onReceiver r.signal.sent i none = none := by cases m <;> simp [Move.onReceiver]
    exact .gone ((receivers_step hr m).trans (congrArg some hnone)) (List.mem_append_left _ hgone)
  | follows seen hr hthere hle hsum =>
    have hr' := receivers_step hr m
    have htaken := total_step r m Reception.taken i
    have hmissed := total_step r m Reception.missed i
    rw [receive_of_some hr] at htaken hmissed
    have hsent := sent_step r m
    have htriggers := triggers_snoc later m
    dsimp only at htaken hmissed
    by_cases hm : m = .receive i
    · subst hm
      obtain ⟨-, hbound, hanswer, -⟩ := next_sums r.signal.sent seen
      have hbound := hbound hle
      rw [if_pos rfl] at htaken hmissed
      simp only [Move.triggers] at hsent htriggers
      refine .follows (next r.signal.sent seen).2 (hr'.trans ?_) (by simp [hthere]) ?_ ?_
      · simp [Move.onReceiver]
      · omega
      · simp only [Record.taken, Record.missed] at hsum ⊢
        omega
    · by_cases hgone : m = .unsubscribe i
      · subst hgone
        exact .gone (hr'.trans (congrArg some (if_pos rfl))) (by simp)
      · rw [if_neg hm] at htaken hmissed
        refine .follows seen (hr'.trans (congrArg some ?_)) (by simp [hthere, Ne.symm hgone]) ?_ ?_
        · cases m <;> simp_all [Move.onReceiver]
        · omega
        · simp only [Record.taken, Record.missed] at hsum ⊢
          omega

theorem length_receivers_step (r : Record) (m : Move) :
    (r.step m).signal.receivers.length =
      r.signal.receivers.length + if m = .subscribe then 1 else 0 := by
  cases m with
  | subscribe => simp [Record.step, subscribe]
  | unsubscribe j => simp [Record.step, unsubscribe]
  | receive j =>
    simp only [Record.step, receive]
    split <;> simp
  | wait | abort | trigger | send | rouse => rfl

theorem length_receivers_recorded (moves : List Move) :
    (recorded moves).signal.receivers.length = moves.count .subscribe := by
  induction moves using List.reverseRecOn with
  | nil => rfl
  | append_singleton moves m ih =>
    rw [recorded_snoc, length_receivers_step, ih, List.count_append, List.count_singleton]
    simp

/-- Nothing is told to a receiver that is not there yet, but that it is closed. -/
theorem total_of_le (f : Reception → Nat) (hf : f .closed = 0) (moves : List Move)
    (h : (recorded moves).signal.receivers.length ≤ i) : (recorded moves).total f i = 0 := by
  induction moves using List.reverseRecOn with
  | nil => rfl
  | append_singleton moves m ih =>
    rw [recorded_snoc] at h ⊢
    have hle : (recorded moves).signal.receivers.length ≤ i := by
      rw [length_receivers_step] at h
      omega
    have hnone := List.getElem?_eq_none hle
    cases m with
    | receive j =>
      simp only [Record.step, Record.total_snoc]
      refine Nat.add_eq_zero_iff.2 ⟨ih hle, ite_eq_right_iff.2 ?_⟩
      rintro rfl
      rw [receive_of_not_some (by simp [hnone]), hf]
    | _ => exact ih hle

/-- A new receiver has been told nothing, and nothing is pending for it. -/
theorem follows_subscribe (moves : List Move) :
    Follows (moves.count .subscribe) [] ((recorded moves).step .subscribe) := by
  have hlength := length_receivers_recorded moves
  have htaken := total_of_le Reception.taken rfl moves (Nat.le_of_eq hlength)
  have hmissed := total_of_le Reception.missed rfl moves (Nat.le_of_eq hlength)
  refine .follows (recorded moves).signal.sent ?_ nofun (Nat.le_refl _) ?_
  · simp [Record.step, subscribe, ← hlength]
  · have hpending : (recorded moves).signal.sent - (recorded moves).signal.sent = 0 :=
      Nat.sub_self _
    exact (congrArg₂ (· + ·) (congrArg₂ (· + ·) htaken hmissed) hpending).symm

/-- Whatever the moves, before and after it subscribed. -/
theorem follows_recorded (before later : List Move) :
    Follows (before.count .subscribe) later (recorded (before ++ .subscribe :: later)) := by
  induction later using List.reverseRecOn with
  | nil =>
    rw [recorded_snoc]
    exact follows_subscribe before
  | append_singleton later m ih =>
    rw [← List.cons_append, ← List.append_assoc, recorded_snoc]
    exact ih.step m

/-! ## What can still be received -/

theorem pending_of_some (hr : s.receivers[i]? = some (some seen)) :
    s.pending i = s.sent - seen := by
  rw [pending, hr]

theorem pending_of_not_some (hr : ∀ seen, s.receivers[i]? ≠ some (some seen)) :
    s.pending i = 0 := by
  unfold pending
  split
  · next seen hseen => exact absurd hseen (hr seen)
  · rfl

/-- Of what is pending one trigger can be handed on, if there is any. -/
theorem taken_receive (s : StopSignal) (i : Nat) :
    (s.receive i).1.taken + min 1 ((s.receive i).2.pending i) = min 1 (s.pending i) := by
  by_cases hr : ∃ seen, s.receivers[i]? = some (some seen)
  · obtain ⟨seen, hr⟩ := hr
    obtain ⟨-, -, -, hroom⟩ := next_sums s.sent seen
    have hlength := (List.getElem?_eq_some_iff.1 hr).1
    rw [receive_of_some hr, pending_of_some hr, hroom]
    simp [pending, hlength]
  · rw [receive_of_not_some fun seen hseen => hr ⟨seen, hseen⟩]
    exact Nat.zero_add _

/-- Nothing but a trigger adds to what is pending. -/
theorem pending_step_le (r : Record) {m : Move} (hm : m.triggers = 0) (hi : m ≠ .receive i) :
    (r.step m).signal.pending i ≤ r.signal.pending i := by
  by_cases hthere : ∃ seen, (r.step m).signal.receivers[i]? = some (some seen)
  · obtain ⟨seen, hr'⟩ := hthere
    have hsent := sent_step r m
    rw [hm, Nat.add_zero] at hsent
    rw [pending_of_some hr', hsent]
    cases hr : r.signal.receivers[i]? with
    | none =>
      -- it is there now and was not: nothing has been triggered since it subscribed
      have hlength := List.getElem?_eq_none_iff.1 hr
      by_cases hnew : m = .subscribe
      · subst hnew
        simp only [Record.step, subscribe, List.getElem?_append_right hlength,
          List.getElem?_singleton] at hr'
        split at hr'
        · cases hr'
          simp
        · cases hr'
      · have hsame := length_receivers_step r m
        rw [if_neg hnew, Nat.add_zero] at hsame
        rw [List.getElem?_eq_none (hsame ▸ hlength)] at hr'
        cases hr'
    | some r? =>
      have hsame : m.onReceiver r.signal.sent i r? = some seen :=
        Option.some.inj ((receivers_step hr m).symm.trans hr')
      have hseen : r? = some seen := by
        cases m <;> simp_all [Move.onReceiver]
      exact Nat.le_of_eq (pending_of_some (hseen ▸ hr)).symm
  · rw [pending_of_not_some fun seen hseen => hthere ⟨seen, hseen⟩]
    exact Nat.zero_le _

/-- Without a trigger no move adds to what a receiver was handed and can still be handed. -/
theorem taken_add_room_step (r : Record) (i : Nat) {m : Move} (hm : m.triggers = 0) :
    (r.step m).taken i + min 1 ((r.step m).signal.pending i) ≤
      r.taken i + min 1 (r.signal.pending i) := by
  have htaken : (r.step m).taken i = _ := total_step r m Reception.taken i
  rw [htaken]
  by_cases hi : m = .receive i
  · subst hi
    rw [if_pos rfl, Nat.add_assoc]
    exact Nat.le_of_eq (congrArg (r.taken i + ·) (taken_receive r.signal i))
  · rw [if_neg hi]
    have hpending := pending_step_le r hm hi
    simp only [Record.taken]
    omega

/-- **A receiver can be handed one of the pending triggers at most**, whatever is done but to
trigger the signal again. -/
theorem taken_le_of_quiet (moves : List Move) {more : List Move} (hmore : triggers more = 0)
    (i : Nat) : (recorded (moves ++ more)).taken i ≤
      (recorded moves).taken i + min 1 ((recorded moves).signal.pending i) := by
  suffices h : (recorded (moves ++ more)).taken i +
      min 1 ((recorded (moves ++ more)).signal.pending i) ≤
        (recorded moves).taken i + min 1 ((recorded moves).signal.pending i) by omega
  induction more using List.reverseRecOn with
  | nil => exact Nat.le_of_eq (by rw [List.append_nil])
  | append_singleton more m ih =>
    rw [triggers_snoc, Nat.add_eq_zero_iff] at hmore
    rw [← List.append_assoc, recorded_snoc]
    exact Nat.le_trans (taken_add_room_step _ i hmore.2) (ih hmore.1)

/-- Two answers hand on or count as missed all that was pending. -/
theorem next_twice (sent seen : Nat) :
    (next sent seen).1.taken + (next sent (next sent seen).2).1.taken = min 1 (sent - seen) ∧
      (next sent seen).1.missed + (next sent (next sent seen).2).1.missed = sent - seen - 1 := by
  rcases Nat.lt_trichotomy sent (seen + 1) with h | rfl | h
  · have hnothing := next_of_le (Nat.le_of_lt_succ h)
    rw [hnothing, hnothing]
    simp only [Reception.taken, Reception.missed]
    omega
  · rw [next_succ, next_of_le (Nat.le_refl _)]
    simp [Reception.taken, Reception.missed]
  · obtain ⟨sent, rfl⟩ : ∃ n, sent = n + 1 := ⟨sent - 1, by omega⟩
    rw [next_of_lt h, Nat.add_sub_cancel, next_succ]
    simp only [Reception.taken, Reception.missed]
    omega

/-- A receiver that asks twice is told of all that was pending. -/
theorem total_receive_twice (hr : r.signal.receivers[i]? = some (some seen))
    (f : Reception → Nat) :
    ((r.step (.receive i)).step (.receive i)).total f i =
      r.total f i + (f (next r.signal.sent seen).1 +
        f (next r.signal.sent (next r.signal.sent seen).2).1) := by
  have hr' : (r.step (.receive i)).signal.receivers[i]? =
      some (some (next r.signal.sent seen).2) := by
    rw [receivers_step hr]
    simp [Move.onReceiver]
  have hsent : (r.step (.receive i)).signal.sent = r.signal.sent := sent_receive r.signal i
  rw [total_step, if_pos rfl, receive_of_some hr', hsent, total_step, if_pos rfl,
    receive_of_some hr, Nat.add_assoc]

/-! ## All of it -/

/-- **Which tasks have ended, and where every trigger went.**

A task that began between some moves and later ones has ended just when it was aborted or the signal
was triggered later on, once every waiting task has gone on; and it is so at any time if tasks go on
at once.

For a receiver that subscribed between some moves and later ones and is still there, the later
triggers are those that were handed on to it, those that it was told it had missed, and those that
are pending for it. Of the pending ones it can be handed one at most, whatever is done but to
trigger the signal again; and if it asks twice it is handed that one, and told of the others. -/
theorem accounted_of_moves (before later : List Move) :
    (let i := before.count .wait
      let r := recorded (before ++ .wait :: later)
      r.signal.settle.done[i]? = some (decide (.abort i ∈ later ∨ 0 < triggers later)) ∧
        (.send ∉ later → r.signal.done[i]? = r.signal.settle.done[i]?)) ∧
    (let i := before.count .subscribe
      let r := recorded (before ++ .subscribe :: later)
      .unsubscribe i ∉ later →
        triggers later = r.taken i + r.missed i + r.signal.pending i ∧
        (∀ more, triggers more = 0 →
          (recorded (before ++ .subscribe :: later ++ more)).taken i ≤ r.taken i + 1) ∧
        let r' := recorded (before ++ .subscribe :: later ++ [.receive i, .receive i])
        r'.taken i = r.taken i + min 1 (r.signal.pending i) ∧
          r'.missed i = r.missed i + (r.signal.pending i - 1)) := by
  refine ⟨(awaits_recorded before later).done_eq, fun hthere => ?_⟩
  rcases follows_recorded before later with ⟨-, hgone⟩ | ⟨seen, hr, -, -, hsum⟩
  · exact absurd hgone hthere
  · obtain ⟨htaken, hmissed⟩ := next_twice
      (recorded (before ++ .subscribe :: later)).signal.sent seen
    dsimp only
    rw [pending_of_some hr]
    refine ⟨hsum, fun more hmore => ?_, ?_, ?_⟩
    · exact Nat.le_trans (taken_le_of_quiet _ hmore _)
        (Nat.add_le_add_left (Nat.min_le_left _ _) _)
    · rw [← htaken, recorded_append]
      exact total_receive_twice hr Reception.taken
    · rw [← hmissed, recorded_append]
      exact total_receive_twice hr Reception.missed

/-- Three triggers: the receiver that is asked for is handed the first and misses the second. -/
def rush : List Move := [.trigger, .receive 1, .trigger, .trigger, .receive 1, .abort 0]

/-- Behind one task and one receiver another one of each is there for three triggers: the task has
ended, and the receiver was handed one trigger, has missed one, and can be handed the last one. -/
theorem accounted_of_moves_rush :
    .send ∉ rush ∧ .unsubscribe 1 ∉ rush ∧
      (recorded ([.subscribe, .wait] ++ .wait :: rush)).signal.done[1]? = some true ∧
      (recorded ([.subscribe, .wait] ++ .subscribe :: rush)).taken 1 = 1 ∧
      (recorded ([.subscribe, .wait] ++ .subscribe :: rush)).missed 1 = 1 ∧
      (recorded ([.subscribe, .wait] ++ .subscribe :: rush)).signal.pending 1 = 1 ∧
      (recorded ([.subscribe, .wait] ++ .subscribe :: rush ++ [.unsubscribe 0, .receive 1])).taken 1
        ≤ 2 := by
  have hsend : .send ∉ rush := by decide
  have hthere : .unsubscribe 1 ∉ rush := by decide
  have htaken : (recorded ([.subscribe, .wait] ++ .subscribe :: rush)).taken 1 = 1 := by
    decide +kernel
  have hmissed : (recorded ([.subscribe, .wait] ++ .subscribe :: rush)).missed 1 = 1 := by
    decide +kernel
  have htriggers : triggers rush = 3 := by decide
  obtain ⟨⟨hdone, hsame⟩, hreceiver⟩ := accounted_of_moves [.subscribe, .wait] rush
  obtain ⟨hsum, hmost, -⟩ := hreceiver hthere
  have hsum : triggers rush = (recorded ([.subscribe, .wait] ++ .subscribe :: rush)).taken 1 +
      (recorded ([.subscribe, .wait] ++ .subscribe :: rush)).missed 1 +
      (recorded ([.subscribe, .wait] ++ .subscribe :: rush)).signal.pending 1 := hsum
  refine ⟨hsend, hthere, ?_, htaken, hmissed, by omega, ?_⟩
  · exact ((hsame hsend).trans hdone).trans (by decide)
  · exact Nat.le_trans (hmost _ (by decide)) (Nat.le_of_eq (congrArg (· + 1) htaken))

end StopSignal

end Correlator
