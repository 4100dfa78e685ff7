import Correlator.Send

/-!
# The two views of a send

A sender may look at its send, and it may wait for what the send comes to. Both read the same other
end. They agree in whatever order that end is resolved and looked at. They part when the end is
given up: who waits is told of a breakdown, who looks sees a send under way for ever, and who looks
first cannot wait any more.

* `SendHandle.Move`, `SendHandle.after`: what is done to a send, and the handle after a history.
* `SendHandle.left?`: what was left of the other end; `SendHandle.Looked`: looked at since.
* `SendHandle.after_eq`: the handle after a history depends on nothing else.
* `SendHandle.Agrees`, `SendHandle.agrees_after`: what looking and waiting bring.
-/

namespace Correlator

namespace SendHandle

/-- What is done to a send: at its other end, which is resolved with a final state or given up, or
by its sender, which looks. -/
inductive Move
  | resolve (state : SendState) (final : state.isTerminal = true)
  | abandon
  | poll
  deriving DecidableEq

/-- The handle after one move. An end that has been left is left for good. -/
def step (h : SendHandle) : Move → SendHandle
  | .resolve state _ => (h.resolve? state).getD h
  | .abandon => h.abandon
  | .poll => h.poll

/-- The handle after a history. -/
def after (history : List Move) : SendHandle :=
  history.foldl step .new

/-- What a move leaves of the other end, if it is a move of that end. -/
def Move.leaves? : Move → Option (Option SendState)
  | .resolve state _ => some (some state)
  | .abandon => some none
  | .poll => none

/-- What was left of the other end: a final state if it was resolved, and nothing if it was given
up. None as long as it is held. -/
def left? (history : List Move) : Option (Option SendState) :=
  history.findSome? Move.leaves?

/-- The other end once it has been left. -/
def endOf (left : Option SendState) : SendEnd :=
  left.elim .gone .resolved

/-- The sender has looked since the other end was left. -/
def Looked (history : List Move) : Prop :=
  Move.poll ∈ history.dropWhile (·.leaves?.isNone)

instance (history : List Move) : Decidable (Looked history) :=
  inferInstanceAs (Decidable (Move.poll ∈ _))

variable {history later : List Move} {state : SendState}

theorem left?_append (h : left? history ≠ none) : left? (history ++ later) = left? history := by
  obtain ⟨left, hleft⟩ := Option.ne_none_iff_exists'.mp h
  simp only [left?, List.findSome?_append] at hleft ⊢
  simp [hleft]

/-- Nothing but a final state is left of an end that is resolved. -/
theorem isTerminal_of_left? (h : left? history = some (some state)) :
    state.isTerminal = true := by
  obtain ⟨m, -, hm⟩ := List.exists_of_findSome?_eq_some h
  cases m with
  | resolve s final =>
    cases hm
    exact final
  | abandon | poll => cases hm

/-! ## The handle after a history -/

/-- A second look shows nothing new. -/
theorem poll_poll (h : SendHandle) : h.poll.poll = h.poll := by
  obtain ⟨seen, other⟩ := h
  cases seen with
  | sent => cases other <;> simp [poll, SendState.isTerminal]
  | delivered status outcome => rfl
  | failed fault => rfl

theorem poll_other_ne_pending {h : SendHandle} (hother : h.other ≠ .pending) :
    h.poll.other ≠ .pending := by
  unfold poll
  split
  · exact hother
  · cases hend : h.other <;> simp_all

/-- Once the other end has been left, nothing but the first look makes a difference. -/
theorem foldl_step_of_left {h : SendHandle} (hother : h.other ≠ .pending) (later : List Move) :
    later.foldl step h = if Move.poll ∈ later then h.poll else h := by
  induction later generalizing h with
  | nil => simp
  | cons m later ih =>
    cases m with
    | resolve s final =>
      have hstep : h.step (.resolve s final) = h := by
        cases hend : h.other <;> simp_all [step, resolve?]
      simpa [hstep] using ih hother
    | abandon =>
      have hstep : h.step .abandon = h := by
        cases hend : h.other <;> simp_all [step, abandon]
      simpa [hstep] using ih hother
    | poll => simpa [step, poll_poll] using ih (poll_other_ne_pending hother)

/-- **The handle after a history** depends on what was left of the other end and on whether the
sender has looked since. -/
theorem after_eq (history : List Move) :
    after history =
      match left? history with
      | none => .new
      | some left =>
        if Looked history then poll ⟨.sent, endOf left⟩ else ⟨.sent, endOf left⟩ := by
  have hleft (left : Option SendState) : endOf left ≠ .pending := by cases left <;> simp [endOf]
  induction history with
  | nil => rfl
  | cons m history ih =>
    cases m with
    | resolve state final =>
      have hlooked : Looked (.resolve state final :: history) ↔ .poll ∈ history := by
        simp [Looked, Move.leaves?]
      simp only [hlooked]
      exact foldl_step_of_left (hleft (some state)) history
    | abandon =>
      have hlooked : Looked (.abandon :: history) ↔ .poll ∈ history := by
        simp [Looked, Move.leaves?]
      simp only [hlooked]
      exact foldl_step_of_left (hleft none) history
    | poll =>
      have hlooked : Looked (.poll :: history) ↔ Looked history := by
        simp [Looked, Move.leaves?]
      simp only [hlooked]
      exact ih

/-- As long as the other end is held, nothing is seen and there is something to wait for. -/
theorem after_of_held (h : left? history = none) : after history = .new := by
  simp [after_eq, h]

theorem after_of_resolved (h : left? history = some (some state)) :
    after history = ⟨state, .taken⟩ ∨ after history = ⟨.sent, .resolved state⟩ := by
  by_cases hlooked : Looked history
  · left
    simp [after_eq, h, hlooked, poll, endOf, SendState.isTerminal]
  · right
    simp [after_eq, h, hlooked, endOf]

theorem after_of_lost (h : left? history = some none) :
    after history = ⟨.sent, .taken⟩ ∧ Looked history ∨
      after history = ⟨.sent, .gone⟩ ∧ ¬Looked history := by
  by_cases hlooked : Looked history
  · left
    simp [after_eq, h, hlooked, poll, endOf, SendState.isTerminal]
  · right
    simp [after_eq, h, hlooked, endOf]

/-! ## Looking and waiting -/

/-- What looking and waiting bring after a history. -/
structure Agrees (history : List Move) : Prop where
  /-- Unless the other end was given up, a look shows a final state just when that state comes
  without waiting. -/
  views : left? history ≠ some none → ∀ state,
    ((after history).poll.seen = state ∧ state.isTerminal = true ↔
      (after history).outcome? = some state ∧ (after history).isSpent = false)
  /-- It is the state with which the other end was resolved. -/
  resolved : ∀ state, left? history = some (some state) →
    (after history).poll.seen = state ∧ (after history).outcome? = some state
  /-- Of an end that was given up a look shows nothing. The send has come to a breakdown, of which
  only those are told who wait without having looked. -/
  lost : left? history = some none →
    (after history).poll.seen = .sent ∧ (after history).outcome? = some (.failed .aborted) ∧
      ((after history).isSpent = true ↔ Looked history)
  /-- Who has seen a final state is not shown and not told another one later. -/
  kept : (after history).poll.seen.isTerminal = true → ∀ later,
    (after (history ++ later)).poll.seen = (after history).poll.seen ∧
      (after (history ++ later)).outcome? = some (after history).poll.seen ∧
      (after (history ++ later)).isSpent = false

/-- What the sender gets of an end that was resolved. -/
theorem told_of_resolved (h : left? history = some (some state)) :
    (after history).poll.seen = state ∧ (after history).outcome? = some state ∧
      (after history).isSpent = false := by
  have hfinal := isTerminal_of_left? h
  obtain htaken | hresolved := after_of_resolved h
  · simp [htaken, poll, outcome?, isSpent, hfinal]
  · simp [hresolved, poll, outcome?, isSpent, SendState.isTerminal]

/-- A look shows a final state of an end that was resolved, and of no other. -/
theorem left?_of_seen (h : (after history).poll.seen.isTerminal = true) :
    left? history = some (some (after history).poll.seen) := by
  cases hleft : left? history with
  | none =>
    rw [after_of_held hleft] at h
    cases h
  | some left =>
    cases left with
    | none =>
      obtain ⟨hafter, -⟩ | ⟨hafter, -⟩ := after_of_lost hleft
      · rw [hafter] at h
        cases h
      · rw [hafter] at h
        cases h
    | some state => rw [(told_of_resolved hleft).1]

/-- **Looking and waiting agree**, save for an end that was given up, of which only waiting tells.
Whoever has seen a final state has seen the last of it. -/
theorem agrees_after (history : List Move) : Agrees history where
  views hkept state := by
    constructor
    · rintro ⟨rfl, hfinal⟩
      exact (told_of_resolved (left?_of_seen hfinal)).2
    · rintro ⟨houtcome, -⟩
      cases hleft : left? history with
      | none =>
        rw [after_of_held hleft] at houtcome
        cases houtcome
      | some left =>
        cases left with
        | none => exact absurd hleft hkept
        | some state' =>
          obtain ⟨hseen, hold, -⟩ := told_of_resolved hleft
          obtain rfl : state' = state := Option.some.inj (hold.symm.trans houtcome)
          exact ⟨hseen, isTerminal_of_left? hleft⟩
  resolved state h := ⟨(told_of_resolved h).1, (told_of_resolved h).2.1⟩
  lost h := by
    obtain ⟨hafter, hlooked⟩ | ⟨hafter, hlooked⟩ := after_of_lost h
    · simp [hafter, poll, outcome?, isSpent, SendState.isTerminal, hlooked]
    · simp [hafter, poll, outcome?, isSpent, SendState.isTerminal, hlooked]
  kept hfinal later := by
    have hleft := left?_of_seen hfinal
    have hlater : left? (history ++ later) = some (some (after history).poll.seen) := by
      rw [left?_append (by simp [hleft]), hleft]
    exact told_of_resolved hlater

/-- The other end is given up before it is resolved. Waiting would tell of the breakdown without
delay, and a look shows a send under way; after the look, waiting breaks down. -/
theorem lost_unseen :
    ((after [.abandon]).outcome? = some (.failed .aborted) ∧
        (after [.abandon]).isSpent = false ∧ (after [.abandon]).poll.seen = .sent) ∧
      (after [.abandon, .poll]).poll.seen = .sent ∧ (after [.abandon, .poll]).isSpent = true := by
  decide

end SendHandle

end Correlator
