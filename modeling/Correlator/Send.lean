import Correlator.Fault

/-!
# Sends

A send is resolved once: either its response was dealt with, or it failed.

* `SendState`: where a send stands.
* `SendHandle`: what the sender keeps of a send: the state it has last seen, and the other end,
  by which the state is delivered.
* `SendHandle.resolve?`, `SendHandle.abandon`: what happens at the other end.
* `SendHandle.poll`, `SendHandle.outcome?`: the state without waiting, and the final state.
* `SendHandle.isSpent`: whether the final state can no longer be waited for.
-/

namespace Correlator

/-- What became of a response. -/
inductive DeliveryOutcome
  | consumed
  | emptyPayload
  | noListener
  deriving DecidableEq, Repr

/-- Where a send stands. -/
inductive SendState
  | sent
  | delivered (status : Nat) (outcome : DeliveryOutcome)
  | failed (fault : Fault)
  deriving DecidableEq, Repr, Inhabited

/-- Whether nothing can change any more. -/
def SendState.isTerminal : SendState → Bool
  | .sent => false
  | _ => true

/-- The other end of a send: it may still be resolved, has been, or is gone without. -/
inductive SendEnd
  | pending
  | resolved (state : SendState)
  | gone
  /-- Resolved or gone, and the sender has looked since. There is nothing more to take over. -/
  | taken
  deriving DecidableEq, Repr

/-- What the sender keeps of a send. -/
structure SendHandle where
  seen : SendState
  other : SendEnd
  deriving DecidableEq, Repr

namespace SendHandle

/-- A send that is under way. -/
def new : SendHandle := ⟨.sent, .pending⟩

/-- The send resolved at the other end, unless it has been already. -/
def resolve? (h : SendHandle) (state : SendState) : Option SendHandle :=
  match h.other with
  | .pending => some { h with other := .resolved state }
  | _ => none

/-- The other end given up; what it has resolved stays. -/
def abandon (h : SendHandle) : SendHandle :=
  match h.other with
  | .pending => { h with other := .gone }
  | _ => h

/-- The state without waiting, and the handle that has seen it. A terminal state is kept. An end
that is gone is let go of, and nothing is seen of it. -/
def poll (h : SendHandle) : SendHandle :=
  if h.seen.isTerminal then h
  else
    match h.other with
    | .pending => h
    | .resolved state => ⟨state, .taken⟩
    | .gone | .taken => { h with other := .taken }

/-- The final state, or none as long as it would have to be waited for. -/
def outcome? (h : SendHandle) : Option SendState :=
  if h.seen.isTerminal then some h.seen
  else
    match h.other with
    | .pending => none
    | .resolved state => some state
    | .gone => some (.failed .aborted)
    | .taken => some (.failed .aborted)

/-- Whether waiting for the final state breaks down: the other end has been let go of, and nothing
final was seen of it. -/
def isSpent (h : SendHandle) : Bool :=
  match h.other with
  | .taken => !h.seen.isTerminal
  | _ => false

end SendHandle

end Correlator
