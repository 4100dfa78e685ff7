import Correlator.Event.Basic

/-!
# Mailboxes

A consumer that keeps its events until they are asked for. An event that does not fit, or comes
after the mailbox was closed, is dropped.

* `Mailbox.send`, `Mailbox.receive`, `Mailbox.close`.
-/

namespace Correlator

/-- Events that wait, first event first. -/
structure Mailbox where
  capacity? : Option Nat
  waiting : List Event
  isOpen : Bool

namespace Mailbox

/-- The greatest capacity. -/
def maxCapacity : Nat := (Nat.pow 2 64 - 1) / 8

/-- An empty mailbox, of unlimited capacity if none is given. There is none without room. -/
def new? (capacity? : Option Nat) : Option Mailbox :=
  match capacity? with
  | none => some ⟨none, [], true⟩
  | some capacity =>
    if 0 < capacity ∧ capacity ≤ maxCapacity then some ⟨capacity, [], true⟩ else none

/-- Whether there is room for one more event. -/
def hasRoom (m : Mailbox) : Bool :=
  match m.capacity? with
  | some capacity => m.waiting.length < capacity
  | none => true

/-- An event put in, if it can be. -/
def send (m : Mailbox) (e : Event) : Mailbox :=
  if m.isOpen && m.hasRoom then { m with waiting := m.waiting ++ [e] } else m

/-- The first event taken out. -/
def receive (m : Mailbox) : Option Event × Mailbox :=
  match m.waiting with
  | e :: rest => (some e, { m with waiting := rest })
  | [] => (none, m)

/-- The mailbox closed; what is in it is lost. -/
def close (m : Mailbox) : Mailbox := { m with waiting := [], isOpen := false }

end Mailbox

end Correlator
