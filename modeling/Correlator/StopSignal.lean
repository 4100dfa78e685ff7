/-!
# The stop signal

A signal that any number of receivers wait for. Only the last trigger is kept: a receiver that
missed older ones is first told how many.

* `StopSignal.subscribe`, `StopSignal.unsubscribe`, `StopSignal.receive`, `StopSignal.trigger`.
* `StopSignal.wait`, `StopSignal.abort`, `StopSignal.settle`: tasks that end with the first
  trigger after they began.
-/

namespace Correlator

/-- What a receiver is told. -/
inductive Reception
  | triggered
  | nothing
  /-- So many triggers were missed. -/
  | lagged (missed : Nat)
  | closed
  deriving DecidableEq, Repr

/-- The text of a reception. -/
def Reception.text : Reception → String
  | .triggered => "triggered"
  | .nothing => "empty"
  | .lagged n => "lagged " ++ String.ofList (Nat.toDigits 10 n)
  | .closed => "closed"

/-- The number of triggers so far, and for each receiver and each waiting task the number of
triggers that it has seen or that came before it; `none` once it is gone. -/
structure StopSignal where
  sent : Nat
  receivers : List (Option Nat)
  waiters : List (Option Nat)
  deriving Repr

namespace StopSignal

/-- The number of triggers that are kept. -/
def kept : Nat := 1

/-- Nothing has happened. -/
def new : StopSignal := ⟨0, [], []⟩

/-- One more receiver. -/
def subscribe (s : StopSignal) : StopSignal :=
  { s with receivers := s.receivers ++ [some s.sent] }

/-- A receiver given up. -/
def unsubscribe (s : StopSignal) (i : Nat) : StopSignal :=
  { s with receivers := s.receivers.set i none }

/-- What a receiver that has seen `seen` triggers is told next, and what it has seen then. -/
def next (sent seen : Nat) : Reception × Nat :=
  if sent ≤ seen then (.nothing, seen)
  else if kept < sent - seen then (.lagged (sent - seen - kept), sent - kept)
  else (.triggered, seen + 1)

/-- What a receiver is told. -/
def receive (s : StopSignal) (i : Nat) : Reception × StopSignal :=
  match s.receivers[i]? with
  | some (some seen) =>
    let (told, seen) := next s.sent seen
    (told, { s with receivers := s.receivers.set i (some seen) })
  | _ => (.closed, s)

/-- One more task that waits for a trigger. -/
def wait (s : StopSignal) : StopSignal := { s with waiters := s.waiters ++ [some s.sent] }

/-- A waiting task given up. -/
def abort (s : StopSignal) (i : Nat) : StopSignal := { s with waiters := s.waiters.set i none }

/-- The tasks that wait, once those that are told of anything have ended. -/
def settle (s : StopSignal) : StopSignal :=
  { s with waiters := s.waiters.map fun w? =>
      w?.bind fun seen => if (next s.sent seen).1 = .nothing then some seen else none }

/-- A trigger. -/
def trigger (s : StopSignal) : StopSignal := settle { s with sent := s.sent + 1 }

/-- For each waiting task, whether it has ended. -/
def done (s : StopSignal) : List Bool := s.waiters.map (·.isNone)

/-- The number of receivers and waiting tasks that are still there. -/
def receiverCount (s : StopSignal) : Nat :=
  (s.receivers.filter (·.isSome)).length + (s.waiters.filter (·.isSome)).length

end StopSignal

end Correlator
