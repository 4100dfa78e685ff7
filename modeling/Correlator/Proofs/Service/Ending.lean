import Mathlib.Data.List.TakeWhile
import Correlator.Proofs.Runs
import Correlator.Service
import Correlator.StopSignal

/-!
# The end of a process

A process runs its service until a stop signal is triggered. Two waits are begun for that signal:
the main task's own, before anybody can trigger it, and the server's, by the main task while the
trigger may come at any moment. A wait that is begun after the trigger does not see it.

* `StopSignal.Current`, `StopSignal.waiters_trigger`: a trigger ends every wait there is.
* `Process`, `Process.step?`, `Process.run?`: the trigger, the main task and the server, in any
  order; `Process.step_of_step?`: what each step does.
* `Process.Late`: the server's wait was begun after the trigger.
* `Process.Waited`, `Process.Kept`, `Process.kept_run`: what the two waits, the main task and the
  server have come to by the steps taken so far.
* `Process.not_isDone_of_late`: a wait that was begun too late is never over.
* **`Process.ends_iff_of_run`**: once it was told to stop, a process can come to its end just when
  the server's wait was begun in time.
* `Process.stranded_of_late`: it may be begun too late.
-/

namespace Correlator

/-! ## Waits for a signal -/

namespace StopSignal

variable {s : StopSignal}

/-- Whoever still waits has seen every trigger that there was before. -/
def Current (s : StopSignal) : Prop := ∀ w ∈ s.waiters, ∀ seen, w = some seen → seen = s.sent

theorem current_new : new.Current := nofun

theorem Current.wait (h : s.Current) : s.wait.Current := by
  intro w hw seen hseen
  rcases List.mem_append.1 hw with hw | hw
  · exact h w hw seen hseen
  · subst hseen
    exact Option.some.inj (List.mem_singleton.1 hw)

theorem done_wait (s : StopSignal) : s.wait.done = s.done ++ [false] := by
  simp [wait, done]

/-- **A trigger ends every wait that was begun before it.** -/
theorem waiters_trigger (h : s.Current) :
    s.trigger.waiters = s.waiters.map fun _ => none := by
  refine List.map_congr_left fun w hw => ?_
  cases w with
  | none => rfl
  | some seen =>
    have hseen := h _ hw seen rfl
    subst hseen
    have htold : (next (s.sent + 1) s.sent).1 = .triggered := by
      unfold next
      rw [if_neg (Nat.not_succ_le_self _), if_neg (by simp [kept])]
    simp [htold]

theorem done_trigger (h : s.Current) : s.trigger.done = s.done.map fun _ => true := by
  simp [done, waiters_trigger h]

theorem Current.trigger (h : s.Current) : s.trigger.Current := by
  intro w hw seen hseen
  rw [waiters_trigger h] at hw
  obtain ⟨-, -, rfl⟩ := List.mem_map.1 hw
  cases hseen

end StopSignal

/-! ## Processes -/

/-- The service once it was stopped: its pipelines are shut down and its pool is closed. -/
def Service.stopped (s : Service) : Service := ⟨s.stop, []⟩

/-- How far the main task has come since it let somebody trigger the signal. -/
inductive MainPhase
  /-- The server's wait is to be begun. -/
  | toWait
  /-- The server is to be started. -/
  | toServe
  /-- Waiting for the signal, or for the server to end before that is heard of. -/
  | watching
  /-- The service is to be stopped; whether the server has ended already. -/
  | closing (ended : Bool)
  /-- Waiting for the server to end. -/
  | awaiting
  | exited
  deriving DecidableEq, Repr

/-- Whether there is a server. -/
inductive ServerPhase
  | unstarted
  | serving
  /-- Its wait was over. -/
  | ended
  /-- It came to its end before that. -/
  | failed
  deriving DecidableEq, Repr

/-- Whether the server has come to its end. -/
def ServerPhase.isOver : ServerPhase → Bool
  | .unstarted | .serving => false
  | .ended | .failed => true

/-- A service with its main task, its server, and the signal that ends both. -/
structure Process where
  signal : StopSignal
  main : MainPhase
  server : ServerPhase
  service : Service

namespace Process

/-- The number of the main task's wait. -/
def ownWait : Nat := 0

/-- The number of the server's wait. -/
def serverWait : Nat := 1

/-- A service that was started. The main task's wait has been begun, and from now on the signal may
be triggered. -/
def listening (s : Service) : Process := ⟨StopSignal.new.wait, .toWait, .unstarted, s⟩

/-- Whether a wait has come to its end. -/
def isDone (p : Process) (wait : Nat) : Bool := p.signal.done[wait]?.getD false

/-! ## Steps -/

/-- The trigger, the steps of the main task, and the end of the server. -/
inductive Move
  | trigger
  | beginWait
  | serve
  /-- The server's wait is over, and the server ends. -/
  | endServer
  | fail
  /-- The main task hears of the signal. -/
  | hear
  /-- The main task hears of the end of the server. -/
  | join
  | stop
  | exit
  deriving DecidableEq, Repr

/-- One step, if it can be taken. The signal is triggered once at most. -/
def step? (p : Process) : Move → Option Process
  | .trigger => if p.signal.sent = 0 then some { p with signal := p.signal.trigger } else none
  | .beginWait =>
    if p.main = .toWait then some { p with signal := p.signal.wait, main := .toServe } else none
  | .serve =>
    if p.main = .toServe then some { p with server := .serving, main := .watching } else none
  | .endServer =>
    if p.server = .serving ∧ p.isDone serverWait then some { p with server := .ended } else none
  | .fail => if p.server = .serving then some { p with server := .failed } else none
  | .hear =>
    if p.main = .watching ∧ p.isDone ownWait then some { p with main := .closing false } else none
  | .join =>
    if p.main = .watching ∧ p.server.isOver then some { p with main := .closing true } else none
  | .stop =>
    match p.main with
    | .closing ended =>
      some { p with
        service := p.service.stopped, main := if ended then .exited else .awaiting }
    | _ => none
  | .exit =>
    if p.main = .awaiting ∧ p.server.isOver then some { p with main := .exited } else none

/-- A run of steps, if each of them can be taken. -/
def run? (p : Process) (moves : List Move) : Option Process := moves.foldlM step? p

/-- What each step does. -/
inductive Step (p : Process) : Move → Process → Prop
  | trigger : p.signal.sent = 0 → Step p .trigger { p with signal := p.signal.trigger }
  | beginWait : p.main = .toWait →
      Step p .beginWait { p with signal := p.signal.wait, main := .toServe }
  | serve : p.main = .toServe → Step p .serve { p with server := .serving, main := .watching }
  | endServer : p.server = .serving → p.isDone serverWait = true →
      Step p .endServer { p with server := .ended }
  | fail : p.server = .serving → Step p .fail { p with server := .failed }
  | hear : p.main = .watching → p.isDone ownWait = true →
      Step p .hear { p with main := .closing false }
  | join : p.main = .watching → p.server.isOver = true →
      Step p .join { p with main := .closing true }
  | stop {ended} : p.main = .closing ended →
      Step p .stop
        { p with service := p.service.stopped, main := if ended then .exited else .awaiting }
  | exit : p.main = .awaiting → p.server.isOver = true → Step p .exit { p with main := .exited }

variable {p q : Process} {m : Move} {moves before later : List Move} {s : Service}

theorem step_of_step? (h : p.step? m = some q) : p.Step m q := by
  cases m with
  | stop =>
    simp only [step?] at h
    split at h
    · rename_i hmain
      cases h
      exact .stop hmain
    · cases h
  | trigger | beginWait | serve | fail =>
    simp only [step?] at h
    split at h
    · rename_i hcan
      cases h
      constructor
      exact hcan
    · cases h
  | endServer | hear | join | exit =>
    simp only [step?] at h
    split at h
    · rename_i hcan
      cases h
      constructor
      · exact hcan.1
      · exact hcan.2
    · cases h

/-! ## The steps so far -/

/-- The server's wait was begun after the trigger. -/
def Late (moves : List Move) : Prop := .beginWait ∈ moves.dropWhile (· ≠ .trigger)

instance (moves : List Move) : Decidable (Late moves) :=
  inferInstanceAs (Decidable (_ ∈ _))

/-- Where nobody has triggered the signal everything is dropped. -/
theorem dropWhile_eq_nil (h : .trigger ∉ moves) : moves.dropWhile (· ≠ .trigger) = [] :=
  List.dropWhile_eq_nil_iff.2 fun _ hm => decide_eq_true fun he => h (he ▸ hm)

theorem dropWhile_ne_nil (h : .trigger ∈ moves) : moves.dropWhile (· ≠ .trigger) ≠ [] :=
  fun hnil => absurd rfl (of_decide_eq_true (List.dropWhile_eq_nil_iff.1 hnil _ h))

theorem trigger_mem_of_late (h : Late moves) : .trigger ∈ moves := by
  by_contra hnone
  rw [Late, dropWhile_eq_nil hnone] at h
  cases h

theorem late_append : Late (before ++ later) ↔
    Late before ∨ .trigger ∈ before ∧ .beginWait ∈ later ∨ .trigger ∉ before ∧ Late later := by
  unfold Late
  rw [List.dropWhile_append]
  by_cases htrigger : .trigger ∈ before
  · rw [if_neg fun hempty => dropWhile_ne_nil htrigger (List.isEmpty_iff.1 hempty)]
    simp [htrigger]
  · rw [dropWhile_eq_nil htrigger]
    simp [htrigger]

theorem late_snoc : Late (before ++ [m]) ↔ Late before ∨ .trigger ∈ before ∧ m = .beginWait := by
  have hone : ¬ Late [m] := by cases m <;> decide
  simp [late_append, hone, eq_comm]

/-- What the two waits have come to by the steps taken so far. The main task's is over once there
was a trigger, the server's if it was begun in time as well. -/
structure Waited (moves : List Move) (signal : StopSignal) : Prop where
  current : signal.Current
  sent : signal.sent = 0 ↔ .trigger ∉ moves
  done : signal.done = decide (.trigger ∈ moves) ::
    if .beginWait ∈ moves then [decide (.trigger ∈ moves ∧ ¬ Late moves)] else []

namespace Waited

variable {signal : StopSignal}

theorem start : Waited [] StopSignal.new.wait where
  current := StopSignal.current_new.wait
  sent := by decide
  done := by decide

theorem trigger (h : Waited before signal) (hsent : signal.sent = 0) :
    Waited (before ++ [.trigger]) signal.trigger := by
  have hnone := h.sent.1 hsent
  have hintime : ¬ Late before := fun hlate => hnone (trigger_mem_of_late hlate)
  refine ⟨h.current.trigger, by simp [StopSignal.trigger, StopSignal.settle], ?_⟩
  rw [StopSignal.done_trigger h.current, h.done]
  by_cases hbegun : .beginWait ∈ before <;> simp [hbegun, late_snoc, hintime]

theorem wait (h : Waited before signal) (hnone : .beginWait ∉ before) :
    Waited (before ++ [.beginWait]) signal.wait := by
  have hintime : ¬ Late before := fun hlate => hnone (List.dropWhile_sublist _ |>.mem hlate)
  refine ⟨h.current.wait, by simpa [StopSignal.wait] using h.sent, ?_⟩
  rw [StopSignal.done_wait, h.done]
  by_cases htrigger : .trigger ∈ before <;> simp [hnone, late_snoc, hintime, htrigger]

theorem other (h : Waited before signal) (htrigger : m ≠ .trigger) (hwait : m ≠ .beginWait) :
    Waited (before ++ [m]) signal := by
  have hlate : Late (before ++ [m]) ↔ Late before := by simp [late_snoc, hwait]
  refine ⟨h.current, by simpa [htrigger.symm] using h.sent, ?_⟩
  rw [h.done]
  simp [htrigger.symm, hwait.symm, hlate]

end Waited

/-- What the waits, the main task and the server have come to by the steps taken so far. -/
structure Kept (moves : List Move) (p : Process) : Prop where
  waited : Waited moves p.signal
  begun : .beginWait ∈ moves ↔ p.main ≠ .toWait
  heard : p.main = .closing false ∨ p.main = .awaiting → .trigger ∈ moves
  started : p.server = .unstarted ↔ p.main = .toWait ∨ p.main = .toServe
  ended : p.server = .ended → p.isDone serverWait = true
  failed : p.server = .failed → .fail ∈ moves
  joined : p.main = .closing true ∨ p.main = .exited → p.server.isOver = true

namespace Kept

theorem isDone_ownWait (h : Kept moves p) : p.isDone ownWait = decide (.trigger ∈ moves) := by
  simp [isDone, ownWait, h.waited.done]

theorem isDone_serverWait (h : Kept moves p) :
    p.isDone serverWait = true ↔ .beginWait ∈ moves ∧ .trigger ∈ moves ∧ ¬ Late moves := by
  by_cases hbegun : .beginWait ∈ moves <;> simp [isDone, serverWait, h.waited.done, hbegun]

theorem start (s : Service) : Kept [] (listening s) where
  waited := .start
  begun := by simp [listening]
  heard := by simp [listening]
  started := by simp [listening]
  ended := nofun
  failed := nofun
  joined := by simp [listening]

theorem step (h : Kept before p) (hs : p.Step m q) : Kept (before ++ [m]) q := by
  have hbegun := h.begun
  have hstarted := h.started
  have hfailed : ∀ m, p.server = .failed → .fail ∈ before ++ [m] := fun m hserver =>
    List.mem_append_left _ (h.failed hserver)
  cases hs with
  | trigger hsent =>
    exact {
      waited := h.waited.trigger hsent
      begun := by simpa using hbegun
      heard := by simp
      started := hstarted
      -- no server has ended before there was a trigger
      ended := fun hended =>
        absurd (h.isDone_serverWait.1 (h.ended hended)).2.1 (h.waited.sent.1 hsent)
      failed := hfailed _
      joined := h.joined }
  | beginWait hmain =>
    have hserver : p.server = .unstarted := hstarted.2 (.inl hmain)
    exact {
      waited := h.waited.wait (by simp [hbegun, hmain])
      begun := by simp
      heard := by simp
      started := by simp [hserver]
      ended := by simp [hserver]
      failed := by simp [hserver]
      joined := by simp }
  | serve hmain =>
    exact {
      waited := h.waited.other nofun nofun
      begun := by simp [hbegun, hmain]
      heard := by simp
      started := by simp
      ended := nofun
      failed := nofun
      joined := by simp }
  | endServer hserving hdone =>
    exact {
      waited := h.waited.other nofun nofun
      begun := by simpa using hbegun
      heard := fun hmain => List.mem_append_left _ (h.heard hmain)
      started := by simpa [hserving] using hstarted
      ended := fun _ => hdone
      failed := nofun
      joined := fun _ => rfl }
  | fail hserving =>
    exact {
      waited := h.waited.other nofun nofun
      begun := by simpa using hbegun
      heard := fun hmain => List.mem_append_left _ (h.heard hmain)
      started := by simpa [hserving] using hstarted
      ended := nofun
      failed := fun _ => by simp
      joined := fun _ => rfl }
  | hear hmain hdone =>
    have htrigger : .trigger ∈ before := of_decide_eq_true (h.isDone_ownWait ▸ hdone)
    exact {
      waited := h.waited.other nofun nofun
      begun := by simp [hbegun, hmain]
      heard := fun _ => List.mem_append_left _ htrigger
      started := by simp [hstarted, hmain]
      ended := h.ended
      failed := hfailed _
      joined := by simp }
  | join hmain hover =>
    exact {
      waited := h.waited.other nofun nofun
      begun := by simp [hbegun, hmain]
      heard := by simp
      started := by simp [hstarted, hmain]
      ended := h.ended
      failed := hfailed _
      joined := fun _ => hover }
  | stop hmain =>
    rename_i ended
    have hheard := h.heard
    have hjoined := h.joined
    rw [hmain] at hheard hjoined
    exact {
      waited := h.waited.other nofun nofun
      begun := by cases ended <;> simp [hbegun, hmain]
      heard := fun hawaits => by cases ended <;> simp_all
      started := by cases ended <;> simp [hstarted, hmain]
      ended := h.ended
      failed := hfailed _
      joined := fun hexited => by cases ended <;> simp_all }
  | exit hmain hover =>
    exact {
      waited := h.waited.other nofun nofun
      begun := by simp [hbegun, hmain]
      heard := by simp
      started := by simp [hstarted, hmain]
      ended := h.ended
      failed := hfailed _
      joined := fun _ => hover }

end Kept

theorem kept_run (h : (listening s).run? moves = some p) : Kept moves p :=
  foldlM_history (P := Kept) (.start s) (fun hkept hstep => hkept.step (step_of_step? hstep)) h

/-- The service is as it was at the start until the main task has stopped it. -/
theorem service_of_run (h : (listening s).run? moves = some p) :
    p.service = if p.main = .awaiting ∨ p.main = .exited then s.stopped else s := by
  refine foldlM_induction
    (P := fun p => p.service = if p.main = .awaiting ∨ p.main = .exited then s.stopped else s)
    ?_ rfl h
  intro p m q hservice hstep
  cases step_of_step? hstep with
  | trigger | endServer | fail => exact hservice
  | beginWait hmain | serve hmain | hear hmain | join hmain | exit hmain =>
    simpa [hmain] using hservice
  | @stop ended hmain => cases ended <;> simpa [hmain] using congrArg Service.stopped hservice

/-! ## Processes that end -/

/-- The process can come to its end without a failure of the server. -/
def Ends (p : Process) : Prop :=
  ∃ later u, .fail ∉ later ∧ p.run? later = some u ∧ u.main = .exited

/-- If the server is over its wait is, or it has failed. -/
theorem Kept.isDone_or_failed (h : Kept moves p) (hover : p.server.isOver = true) :
    p.isDone serverWait = true ∨ p.server = .failed := by
  cases hserver : p.server with
  | ended => exact .inl (h.ended hserver)
  | failed => exact .inr rfl
  | unstarted | serving => simp [hserver, ServerPhase.isOver] at hover

/-- No server fails without a step in which it does. -/
theorem failed_of_run (h : p.run? later = some q) (hfailed : q.server = .failed) :
    p.server = .failed ∨ .fail ∈ later := by
  refine foldlM_history
    (P := fun later q => q.server = .failed → p.server = .failed ∨ .fail ∈ later)
    .inl ?_ h hfailed
  intro before q m r ih hstep hfailed
  rw [List.mem_append, List.mem_singleton, ← or_assoc]
  cases step_of_step? hstep with
  | serve | endServer => cases hfailed
  | fail => exact .inr rfl
  | _ => exact .inl (ih hfailed)

theorem Ends.of_step (hstep : p.step? m = some q) (hm : m ≠ .fail) (h : q.Ends) : p.Ends := by
  obtain ⟨later, u, hgoes, hlater, hexited⟩ := h
  exact ⟨m :: later, u, by simpa [hm.symm] using hgoes,
    (foldlM_cons_of_step hstep).trans hlater, hexited⟩

theorem ends_of_isOver (hawaits : p.main = .awaiting) (hover : p.server.isOver = true) :
    p.Ends :=
  .of_step (m := .exit) (if_pos ⟨hawaits, hover⟩) nofun ⟨[], _, nofun, rfl, rfl⟩

/-- Where the server's wait is over the server ends, and the process after it. -/
theorem ends_of_isDone (hawaits : p.main = .awaiting) (hstarted : p.server ≠ .unstarted)
    (hdone : p.isDone serverWait = true) : p.Ends := by
  cases hserver : p.server with
  | unstarted => exact absurd hserver hstarted
  | serving =>
    exact .of_step (m := .endServer) (if_pos ⟨hserver, hdone⟩) nofun (ends_of_isOver hawaits rfl)
  | ended | failed => exact ends_of_isOver hawaits (by rw [hserver]; rfl)

/-- **A wait that was begun too late is never over.** -/
theorem not_isDone_of_late (h : (listening s).run? moves = some p) (hlate : Late moves)
    (hlater : p.run? later = some q) : q.isDone serverWait = false := by
  have hkept : Kept (moves ++ later) q :=
    kept_run ((foldlM_append_of_run h).trans hlater)
  rw [Bool.eq_false_iff]
  exact fun hdone => (hkept.isDone_serverWait.1 hdone).2.2 (late_append.2 (.inl hlate))

/-- **Once it was told to stop, a process can come to its end just when the server's wait was begun
in time.** The main task waits for the server, with the service stopped. The server's wait is never
over, whatever happens, just when it was begun after the trigger, and then the process cannot come
to its end unless the server has failed; a second trigger would end the wait at any rate. -/
theorem ends_iff_of_run (h : (listening s).run? moves = some p) (hawaits : p.main = .awaiting) :
    p.service = s.stopped ∧
      (Late moves ↔ ∀ later u, p.run? later = some u → u.isDone serverWait = false) ∧
      (p.Ends ↔ ¬ Late moves ∨ p.server = .failed) ∧
      p.signal.trigger.done[serverWait]? = some true := by
  have hkept := kept_run h
  have htrigger : .trigger ∈ moves := hkept.heard (.inr hawaits)
  have hbegun : .beginWait ∈ moves := hkept.begun.2 (by simp [hawaits])
  have hstarted : p.server ≠ .unstarted := fun hserver => by
    simpa [hawaits] using hkept.started.1 hserver
  have hdone : p.isDone serverWait = true ↔ ¬ Late moves := by
    rw [hkept.isDone_serverWait, and_iff_right hbegun, and_iff_right htrigger]
  refine ⟨?_, ⟨fun hlate later u => not_isDone_of_late h hlate, fun hnever => ?_⟩, ⟨?_, ?_⟩, ?_⟩
  · simpa [hawaits] using service_of_run h
  · by_contra hintime
    exact Bool.false_ne_true ((hnever [] p rfl).symm.trans (hdone.2 hintime))
  · rintro ⟨later, u, hgoes, hlater, hexited⟩
    have hkept' : Kept (moves ++ later) u := kept_run ((foldlM_append_of_run h).trans hlater)
    rcases hkept'.isDone_or_failed (hkept'.joined (.inr hexited)) with hdone' | hfailed
    · exact .inl fun hlate =>
        Bool.false_ne_true ((not_isDone_of_late h hlate hlater).symm.trans hdone')
    · exact .inr ((failed_of_run hlater hfailed).resolve_right hgoes)
  · rintro (hintime | hfailed)
    · exact ends_of_isDone hawaits hstarted (hdone.2 hintime)
    · exact ends_of_isOver hawaits (by rw [hfailed]; rfl)
  · rw [StopSignal.done_trigger hkept.waited.current, hkept.waited.done, if_pos hbegun]
    rfl

/-- A service with one pipeline. -/
def kiosk (b : Bridge) : Service :=
  let opened := b.start
    ⟨"kiosk", [⟨.requestSource ⟨"papers", "/kiosk", []⟩ (.steady "desk"), false⟩], false,
      fun _ he => List.mem_singleton.1 he ▸ rfl⟩
  ⟨opened.1, [opened.2.1]⟩

/-- The signal is triggered while the server is at work. -/
def punctual : List Move := [.beginWait, .serve, .trigger, .hear, .stop]

/-- The signal is triggered before the server's wait was begun. -/
def tardy : List Move := [.trigger, .beginWait, .serve, .hear, .stop]

/-- Told to stop while the server is at work, a process can come to its end. -/
theorem ends_iff_of_run_punctual :
    ∃ b p, Bridge.new? {} .empty = some b ∧ (listening (kiosk b)).run? punctual = some p ∧
      p.main = .awaiting ∧ p.service = (kiosk b).stopped ∧
      (kiosk b).bridge.switchboard.routes.size = 1 ∧ (kiosk b).stop.switchboard.routes.size = 0 ∧
      (kiosk b).stop.pool.isOpen = false ∧ p.Ends := by
  have hstopped : (Bridge.new? {} .empty).map (fun b =>
      ((kiosk b).bridge.switchboard.routes.size, (kiosk b).stop.switchboard.routes.size,
        (kiosk b).stop.pool.isOpen)) = some (1, 0, false) := by decide +kernel
  obtain ⟨b, hnew, hstopped⟩ := Option.map_eq_some_iff.1 hstopped
  simp only [Prod.mk.injEq] at hstopped
  obtain ⟨hbound, hnone, hclosed⟩ := hstopped
  have hrun : (listening (kiosk b)).run? punctual = some _ := rfl
  obtain ⟨hservice, -, hends, -⟩ := ends_iff_of_run hrun rfl
  exact ⟨b, _, hnew, hrun, rfl, hservice, hbound, hnone, hclosed, hends.2 (.inl (by decide))⟩

/-- **Told to stop just before the server's wait is begun, a process never ends.** Its service is
stopped, and the main task waits for a server that is not told of it any more. -/
theorem stranded_of_late :
    ∃ b p, Bridge.new? {} .empty = some b ∧ (listening (kiosk b)).run? tardy = some p ∧
      p.main = .awaiting ∧ p.server = .serving ∧ p.isDone ownWait = true ∧
      (∀ later u, p.run? later = some u → u.isDone serverWait = false) ∧
      p.signal.trigger.done[serverWait]? = some true := by
  obtain ⟨b, hnew⟩ : ∃ b, Bridge.new? {} .empty = some b := ⟨_, rfl⟩
  have hrun : (listening (kiosk b)).run? tardy = some _ := rfl
  exact ⟨b, _, hnew, hrun, rfl, rfl, rfl,
    fun later u hlater => not_isDone_of_late hrun (by decide) hlater, rfl⟩

end Process

end Correlator
