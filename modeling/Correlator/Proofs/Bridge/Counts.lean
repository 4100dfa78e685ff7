import Mathlib.Algebra.BigOperators.Group.Finset.Piecewise
import Correlator.Proofs.Bodies
import Correlator.Proofs.Bridge.Dispatches
import Correlator.Proofs.Pipeline.Addressee

/-!
# How deliveries are counted

A delivery has seven ways out, and on all but one of them a counter moves. The one without is that
of a response that was to be saved to a file and was not.

* `Meter.outcomes`: the sum of the counters that say how deliveries came out;
  `Meter.outcomes_of_moves`: what it comes to when one of them moves.
* `Receipt`: what a delivery has to go by; `Delivery.ComesOut`: its ways out;
  `Delivery.comesOut_run`: a whole delivery takes one of them.
* `Delivery.isUnsaved_receipt_iff`: when the way out without a counter is taken.
* `Bridge.Turned`: what the job of a delivery comes to when it goes on: a gate holds it up, whoever
  it calls does not return, or its call returns and is counted; `Bridge.turned_runDelivery`.
* `Bridge.Calls`: such jobs in any order, with anything else in between that does not touch the
  counters; `Bridge.returned?`: the deliveries that are kept.
* **`Bridge.outcomes_of_calls`**: the counters add up to the deliveries whose calls have returned,
  less those whose files could not be written.
-/

namespace Correlator

/-! ## Sums of counters -/

/-- Whether a counter says how a delivery came out. -/
def Series.isOutcome : Series → Bool
  | .sendFailures _ | .responsesDelivered _ | .lookupMisses _ | .eventsDropped _ => true
  | .requestsSent _ | .inboundRequests _ | .poolInUse => false

namespace Meter

variable {m m' : Meter} {s : Series}

/-- The counters of outcomes that were touched. -/
def touched (m : Meter) : Finset Series :=
  ((m.values.map Prod.fst).filter Series.isOutcome).toFinset

/-- The sum of all counters of outcomes. -/
def outcomes (m : Meter) : Nat := ∑ s ∈ m.touched, m.value s

theorem mem_touched : s ∈ m.touched ↔ s ∈ m.values.map Prod.fst ∧ s.isOutcome = true := by
  rw [touched, List.mem_toFinset, List.mem_filter]

/-- What was not touched is zero. -/
theorem value_eq_zero (h : s ∉ m.values.map Prod.fst) : m.value s = 0 := by
  have hnone : m.values.lookup s = none := by
    rw [List.lookup_eq_none_iff]
    intro entry hentry
    rw [bne_iff_ne]
    rintro rfl
    exact h (List.mem_map_of_mem hentry)
  rw [value, hnone]
  rfl

/-- It does not matter to the sum if counters are added that were not touched. -/
theorem outcomes_eq_sum {t : Finset Series} (h : m.touched ⊆ t)
    (ht : ∀ s ∈ t, s.isOutcome = true) : m.outcomes = ∑ s ∈ t, m.value s := by
  refine Finset.sum_subset h fun s hs hnot => value_eq_zero fun hmem => ?_
  exact hnot (mem_touched.2 ⟨hmem, ht s hs⟩)

/-- If one counter moves on by one, the sum does, if it is a counter of outcomes. -/
theorem outcomes_of_moves (moved? : Option Series) (h : ∀ s, s.isOutcome = true →
      m'.value s = m.value s + if moved? = some s then 1 else 0) :
    m'.outcomes = m.outcomes + if moved?.any Series.isOutcome then 1 else 0 := by
  -- all counters that matter on either side
  let t : Finset Series :=
    (m.touched ∪ m'.touched) ∪ (moved?.toList.filter Series.isOutcome).toFinset
  have hout : ∀ s ∈ t, s.isOutcome = true := by
    intro s hs
    rcases Finset.mem_union.1 hs with hs | hs
    · rcases Finset.mem_union.1 hs with hs | hs
      · exact (mem_touched.1 hs).2
      · exact (mem_touched.1 hs).2
    · exact (List.mem_filter.1 (List.mem_toFinset.1 hs)).2
  have hmoved : (∑ s ∈ t, if moved? = some s then 1 else 0) =
      if moved?.any Series.isOutcome then 1 else 0 := by
    cases hm : moved? with
    | none => simp
    | some moved =>
      simp only [Option.some.injEq, Finset.sum_ite_eq, Option.any_some]
      refine if_congr ⟨hout moved, fun hmoved => Finset.mem_union_right _ ?_⟩ rfl rfl
      exact List.mem_toFinset.2 (List.mem_filter.2 ⟨by simp [hm], hmoved⟩)
  have hm : m.touched ⊆ t := fun s hs =>
    Finset.mem_union_left _ (Finset.mem_union_left _ hs)
  have hm' : m'.touched ⊆ t := fun s hs =>
    Finset.mem_union_left _ (Finset.mem_union_right _ hs)
  calc m'.outcomes = ∑ s ∈ t, m'.value s := outcomes_eq_sum hm' hout
    _ = ∑ s ∈ t, (m.value s + if moved? = some s then 1 else 0) :=
      Finset.sum_congr rfl fun s hs => h s (hout s hs)
    _ = m.outcomes + if moved?.any Series.isOutcome then 1 else 0 := by
      rw [Finset.sum_add_distrib, hmoved, outcomes_eq_sum hm hout]

theorem outcomes_congr (h : ∀ s, s.isOutcome = true → m'.value s = m.value s) :
    m'.outcomes = m.outcomes :=
  outcomes_of_moves none fun s hs => by simpa using h s hs

end Meter

/-! ## Ways out of a delivery -/

/-- What a delivery has to go by: the fault that came instead of a response, or what is known of
the response and what its body was taken in as. -/
abbrev Receipt := Except Fault (Endpoint × Except Fault Taken)

namespace Delivery

variable {β : Type} (d : Delivery Consumer) (registry : Registry β) (files : FileTree)

/-- What a body is taken in as, with every gate open. -/
def taken (body : Body) : Except Fault Taken :=
  match d.begin files with
  | (.error fault, _) => .error fault
  | (.ok i, files) => (i.runThrough files body).1

/-- What there is to go by, with every gate open. -/
def receipt (result : Except Fault Message) : Receipt :=
  result.map fun message => (message.endpoint, d.taken files message.body)

/-- Whether there is a response that was to be saved to a file and was not. -/
def isUnsaved : Receipt → Bool
  | .ok (_, .error _) => d.download?.isSome
  | _ => false

/-- The ways out of a delivery: the state of the send, and the counter that moves. -/
inductive ComesOut (d : Delivery Consumer) (registry : Registry β) :
    Receipt → SendState → Option Series → Prop
  | unsent (fault : Fault) :
    ComesOut d registry (.error fault) (.failed fault) (some (.sendFailures d.url))
  /-- A file is not written, and no counter moves. -/
  | unsaved (e : Endpoint) (fault : Fault) (path : String) : d.download? = some path →
    ComesOut d registry (.ok (e, .error fault)) (.failed fault) none
  | unread (e : Endpoint) (fault : Fault) : d.download? = none →
    ComesOut d registry (.ok (e, .error fault)) (.failed fault)
      (some (.eventsDropped .readFailed))
  | empty (e : Endpoint) (taken : Taken) : d.payloadOf taken = "" →
    ComesOut d registry (.ok (e, .ok taken)) (.delivered (statusOf e) .emptyPayload)
      (some (.eventsDropped .emptyPayload))
  | direct (e : Endpoint) (taken : Taken) (k : Consumer) : d.payloadOf taken ≠ "" →
    d.target = .direct k →
    ComesOut d registry (.ok (e, .ok taken)) (.delivered (statusOf e) .consumed)
      (some (.responsesDelivered (statusOf e)))
  | found (e : Endpoint) (taken : Taken) (owner : String) (l : Listener β) :
    d.payloadOf taken ≠ "" → d.target = .registered owner →
    registry.resolve? owner (some (Key.statusText (statusOf e))) = some l →
    ComesOut d registry (.ok (e, .ok taken)) (.delivered (statusOf e) .consumed)
      (some (.responsesDelivered (statusOf e)))
  | missed (e : Endpoint) (taken : Taken) (owner : String) :
    d.payloadOf taken ≠ "" → d.target = .registered owner →
    registry.resolve? owner (some (Key.statusText (statusOf e))) = none →
    ComesOut d registry (.ok (e, .ok taken)) (.delivered (statusOf e) .noListener)
      (some (.lookupMisses owner))

/-- The state of the send and the counter that moves, if whoever is handed the event takes it. -/
def resolution : Receipt → SendState × Option Series
  | .error fault => ((d.refuse fault).1, some (d.refuse fault).2)
  | .ok (e, result) =>
    match d.conclude e result with
    | .resolved state moved? => (state, moved?)
    | .hand status _ =>
      let (state, moved) := d.settled status (d.route registry status).isSome
      (state, some moved)

theorem comesOut_resolution (r : Receipt) :
    d.ComesOut registry r (d.resolution registry r).1 (d.resolution registry r).2 := by
  cases r with
  | error fault => exact .unsent fault
  | ok r =>
    obtain ⟨e, result⟩ := r
    cases result with
    | error fault =>
      unfold resolution conclude
      cases hdownload : d.download? with
      | none => exact .unread e fault hdownload
      | some path => exact .unsaved e fault path hdownload
    | ok taken =>
      unfold resolution
      dsimp only
      rw [conclude_ok]
      by_cases hempty : d.payloadOf taken = ""
      · rw [if_pos (String.isEmpty_iff.2 hempty)]
        exact .empty e taken hempty
      · rw [if_neg (mt String.isEmpty_iff.1 hempty)]
        unfold settled route
        cases htarget : d.target with
        | direct k => exact .direct e taken k hempty htarget
        | registered owner =>
          cases hl : registry.resolve? owner (some (Key.statusText (statusOf e))) with
          | none =>
            simp only [hl]
            exact .missed e taken owner hempty htarget hl
          | some l =>
            simp only [hl]
            exact .found e taken owner l hempty htarget hl

/-- What follows from a step, where whoever is handed the event takes it. -/
theorem report_conclude (e : Endpoint) (result : Except Fault Taken) :
    ((d.report registry files (d.conclude e result)).state,
      (d.report registry files (d.conclude e result)).moved?) =
      d.resolution registry (.ok (e, result)) := by
  unfold resolution report
  dsimp only
  cases d.conclude e result with
  | resolved state moved? => rfl
  | hand status event => rfl

/-- **A whole delivery takes one of the ways out.** -/
theorem comesOut_run (result : Except Fault Message) :
    d.ComesOut registry (d.receipt files result) (d.run registry files result).state
      (d.run registry files result).moved? := by
  have hrun : ((d.run registry files result).state, (d.run registry files result).moved?) =
      d.resolution registry (d.receipt files result) := by
    cases result with
    | error fault => rfl
    | ok message =>
      unfold run receipt taken
      dsimp only [Except.map]
      rcases d.begin files with ⟨fault | i, files'⟩
      · exact d.report_conclude registry files' message.endpoint (.error fault)
      · exact d.report_conclude registry _ message.endpoint _
  have hway := d.comesOut_resolution registry (d.receipt files result)
  rwa [← hrun] at hway

variable {d registry files} {r : Receipt} {state : SendState} {moved? : Option Series}

/-- No counter moves just when a file was not written. -/
theorem ComesOut.eq_none_iff (h : d.ComesOut registry r state moved?) :
    moved? = none ↔ d.isUnsaved r = true := by
  cases h with
  | unsaved e fault path hdownload => simp [isUnsaved, hdownload]
  | unread e fault hdownload => simp [isUnsaved, hdownload]
  | unsent | empty | direct | found | missed => simp [isUnsaved]

/-- Only counters of outcomes move. -/
theorem ComesOut.isOutcome {series : Series} (h : d.ComesOut registry r state (some series)) :
    series.isOutcome = true := by
  cases h <;> rfl

end Delivery

namespace Intake

/-- A file takes all of a body in, unless the body breaks off. -/
theorem exists_error_save_iff (name : FileName) (written : Nat) (files : FileTree) (body : Body) :
    (∃ fault, ((save name written).runThrough files body).1 = .error fault) ↔ ¬ body.Whole := by
  induction body generalizing written files with
  | nil => simp [runThrough, Body.Whole]
  | cons piece rest ih =>
    rw [Body.whole_cons]
    cases piece with
    | chunk bs =>
      rw [and_iff_right (by simp)]
      exact ih (written + bs.length) (files.writeAt name written bs)
    | broken e => simp [runThrough]
    | gate gate =>
      rw [and_iff_right (by simp)]
      exact ih written files

/-- A gate that holds a body up does not matter to what the body is taken in as. -/
theorem runThrough_of_run {α : Type} (i : Intake) (files : FileTree) (gates : Gates α) (t : α)
    (body : Body) :
    match (i.run files gates t body).1 with
    | .ended result => (i.runThrough files body).1 = result
    | .held i' rest => ∀ files', (i'.runThrough files' rest).1 = (i.runThrough files body).1 := by
  induction body generalizing i files gates with
  | nil => rfl
  | cons piece rest ih =>
    cases piece with
    | chunk bs =>
      rcases htake : i.take files bs with ⟨fault | i', files'⟩
      · simp only [run, runThrough, htake]
      · simp only [run, runThrough, htake]
        exact ih i' files' gates
    | broken e => rfl
    | gate name =>
      rcases harrive : gates.arrive name t with ⟨gates', through⟩
      simp only [run, runThrough, harrive]
      cases through with
      | true => exact ih i files gates'
      | false => exact fun files' => i.runThrough_fst files' files rest

end Intake

namespace Delivery

variable {d : Delivery Consumer}

/-- A body is lost that is to be saved if its file cannot be made, or if it breaks off. -/
theorem exists_error_taken_iff {path : String} (h : d.download? = some path) (files : FileTree)
    (body : Body) : (∃ fault, d.taken files body = .error fault) ↔
      (∃ fault, (Intake.saving files path).1 = .error fault) ∨ ¬ body.Whole := by
  have hsaving := Intake.saving_result files path
  unfold taken begin
  rw [h]
  dsimp only
  generalize Intake.saving files path = made at hsaving ⊢
  obtain ⟨fault | i, files'⟩ := made
  · simp
  · obtain ⟨path', e, he⟩ | ⟨name, hname⟩ := hsaving
    · cases he
    · cases hname
      simp [Intake.exists_error_save_iff]

theorem isUnsaved_of_download? {path : String} (h : d.download? = some path) (e : Endpoint)
    (result : Except Fault Taken) :
    d.isUnsaved (.ok (e, result)) = true ↔ ∃ fault, result = .error fault := by
  unfold isUnsaved
  cases result with
  | error fault => simp [h]
  | ok taken => simp

theorem isUnsaved_of_none (h : d.download? = none) (r : Receipt) : d.isUnsaved r = false := by
  unfold isUnsaved
  split
  · rw [h]
    rfl
  · rfl

/-- **When a file is not written**: it cannot be made, or the body breaks off. -/
theorem isUnsaved_receipt_iff (d : Delivery Consumer) (files : FileTree)
    (result : Except Fault Message) :
    d.isUnsaved (d.receipt files result) = true ↔
      ∃ message path, result = .ok message ∧ d.download? = some path ∧
        ((∃ fault, (Intake.saving files path).1 = .error fault) ∨ ¬ message.body.Whole) := by
  constructor
  · intro hunsaved
    cases result with
    | error fault => cases hunsaved
    | ok message =>
      cases hdownload : d.download? with
      | none => exact absurd hunsaved (Bool.eq_false_iff.1 (isUnsaved_of_none hdownload _))
      | some path =>
        have hlost := (isUnsaved_of_download? hdownload message.endpoint _).1 hunsaved
        exact ⟨message, path, rfl, rfl, (exists_error_taken_iff hdownload files _).1 hlost⟩
  · rintro ⟨message, path, rfl, hdownload, hlost⟩
    refine (isUnsaved_of_download? hdownload message.endpoint _).2 ?_
    exact (exists_error_taken_iff hdownload files _).2 hlost

end Delivery

/-! ## Jobs of the pool -/

/-- What there will be to go by for a send, once its body was taken in to the end. -/
def Send.due (s : Send) (files : FileTree) : Receipt :=
  match s.reading? with
  | none => s.delivery.receipt files s.result
  | some (i, rest) => s.result.map fun message => (message.endpoint, (i.runThrough files rest).1)

/-- Whether a delivery returns: whoever is called takes the event. -/
def Delivery.returns (d : Delivery Consumer) (s : Switchboard) : Receipt → Bool
  | .error _ => true
  | .ok (e, result) => (d.ending s e true result).2.all fun c => !c.consumer.fails c.event

namespace Bridge

variable {b b' b'' : Bridge} {n : Nat} {s s' : Send} {calls : List (Send × Receipt)}

/-- What the job of a delivery comes to when it begins, or goes on after a gate. -/
inductive Turned (b : Bridge) (n : Nat) (s : Send) : Bridge × Bool → Prop
  /-- A gate holds it up, and what is due for it stays the same. -/
  | held {b' : Bridge} (s' : Send) : b'.sends = b.sends.set n s' →
    (∀ files, s'.due files = s.due b.files) → b'.meter = b.meter → Turned b n s (b', false)
  /-- Whoever was called for it has not returned. -/
  | crashed {b' : Bridge} : s.delivery.returns b.switchboard (s.due b.files) = false →
    b'.sends = b.sends.set n (s.told (.failed .aborted)) → b'.meter = b.meter →
      Turned b n s (b', true)
  /-- It takes its way out, and no other counter moves. -/
  | returned {b' : Bridge} (state : SendState) (moved? : Option Series) :
    s.delivery.returns b.switchboard (s.due b.files) = true →
    s.delivery.ComesOut b.switchboard.responses (s.due b.files) state moved? →
    b'.sends = b.sends.set n (s.told state) →
    (∀ series, b'.meter.value series =
      b.meter.value series + if moved? = some series then 1 else 0) → Turned b n s (b', true)

/-- A send that is told the state that its way out gives, and whose counter moves. -/
theorem turned_resolve (b₁ : Bridge) (state : SendState) (moved? : Option Series)
    (hs : b.sends[n]? = some s)
    (hreturns : s.delivery.returns b.switchboard (s.due b.files) = true)
    (hway : s.delivery.resolution b.switchboard.responses (s.due b.files) = (state, moved?))
    (hsends : b₁.sends = b.sends) (hmeter : b₁.meter = b.meter) :
    b.Turned n s ((b₁.count? moved?).resolve n state, true) := by
  have hcomes := s.delivery.comesOut_resolution b.switchboard.responses (s.due b.files)
  rw [hway] at hcomes
  have hsame : (b₁.count? moved?).sends = b.sends := by
    cases moved? with
    | none => exact hsends
    | some moved => exact hsends
  refine .returned state moved? hreturns hcomes ?_ fun series => ?_
  · rw [sends_resolve (hsame ▸ hs), hsame]
  · rw [← hmeter]
    exact b₁.value_count? moved? series

/-- Somebody is called, who takes the event or does not return. -/
theorem turned_deliverTo {e : Endpoint} {result : Except Fault Taken} {status : Nat} {event : Event}
    {taker : Consumer ⊕ Nat} {k : Consumer} (hs : b.sends[n]? = some s)
    (hdue : s.due b.files = .ok (e, result))
    (hconclude : s.delivery.conclude e result = .hand status event)
    (hroute : s.delivery.route b.switchboard.responses status = some taker)
    (hcallee : b.switchboard.callee? taker = some k) (files : FileTree) (gates : Gates Task) :
    b.Turned n s ({ b with files, gates }.deliverTo n k status event, true) := by
  have hreturns : s.delivery.returns b.switchboard (s.due b.files) = !k.fails event := by
    simp [hdue, Delivery.returns, Delivery.ending, hconclude, hroute, hcallee]
  have hway : s.delivery.resolution b.switchboard.responses (s.due b.files) =
      (.delivered status .consumed, some (.responsesDelivered status)) := by
    simp [hdue, Delivery.resolution, hconclude, hroute, Delivery.settled]
  simp only [deliverTo, hand_eq]
  cases hfails : k.fails event with
  | true =>
    rw [hfails] at hreturns
    exact .crashed hreturns (sends_resolve hs _) rfl
  | false =>
    rw [hfails] at hreturns
    exact turned_resolve _ _ (some _) hs hreturns hway rfl rfl

/-- A delivery that is concluded. -/
theorem turned_concludeDelivery {e : Endpoint} {result : Except Fault Taken}
    (hs : b.sends[n]? = some s) (hdue : s.due b.files = .ok (e, result)) (files : FileTree)
    (gates : Gates Task) :
    b.Turned n s ({ b with files, gates }.concludeDelivery n s e result, true) := by
  have hresolved := fun state moved? => turned_resolve { b with files, gates } state moved? hs
  rw [hdue] at hresolved
  cases hconclude : s.delivery.conclude e result with
  | resolved state moved? =>
    simp only [concludeDelivery, hconclude]
    refine hresolved state moved? ?_ ?_ rfl rfl
    · simp [Delivery.returns, Delivery.ending, hconclude]
    · simp [Delivery.resolution, hconclude]
  | hand status event =>
    cases hroute : s.delivery.route b.switchboard.responses status with
    | none =>
      simp only [concludeDelivery, hconclude, hroute, Option.map_none]
      refine hresolved _ (some _) ?_ ?_ rfl rfl
      · simp [Delivery.returns, Delivery.ending, hconclude, hroute]
      · simp [Delivery.resolution, hconclude, hroute]
    | some taker =>
      cases hcallee : b.switchboard.callee? taker with
      | some k =>
        rw [concludeDelivery_of_callee (b := { b with files, gates }) hconclude hroute hcallee]
        exact turned_deliverTo hs hdue hconclude hroute hcallee files gates
      | none =>
        -- only a forwarder may be gone
        cases taker with
        | inl k => cases hcallee
        | inr m =>
          simp only [concludeDelivery, hconclude, hroute, Option.map_some, forward_eq, hcallee]
          refine hresolved _ (some _) ?_ ?_ rfl rfl
          · simp [Delivery.returns, Delivery.ending, hconclude, hroute, hcallee]
          · simp [Delivery.resolution, hconclude, hroute]

/-- A delivery that goes on with a body. -/
theorem turned_resumeDelivery {message : Message} {i : Intake} {body : Body}
    (hs : b.sends[n]? = some s) (hresult : s.result = .ok message)
    (hdue : s.due b.files = .ok (message.endpoint, (i.runThrough b.files body).1))
    (files : FileTree) :
    b.Turned n s ({ b with files }.resumeDelivery n s message.endpoint i body) := by
  have hrun := i.runThrough_of_run files b.gates (Task.deliver n) body
  unfold resumeDelivery takeIn
  dsimp only
  generalize i.run files b.gates (.deliver n) body = r at hrun ⊢
  obtain ⟨progress, files', gates⟩ := r
  cases progress with
  | ended result =>
    refine turned_concludeDelivery hs ?_ files' gates
    rw [hdue, i.runThrough_fst b.files files body]
    exact congrArg (fun r => Except.ok (message.endpoint, r)) hrun
  | held i' rest =>
    dsimp only at hrun ⊢
    rw [alterSend_eq (b := { b with files := files', gates }) hs]
    refine .held { s with reading? := some (i', rest) } rfl (fun files₁ => ?_) rfl
    rw [hdue, i.runThrough_fst b.files files body, ← hrun files₁]
    have hsame : Send.result { s with reading? := some (i', rest) } = s.result := rfl
    simp only [Send.due, hsame, hresult, Except.map]

/-- **A delivery whose call returns takes one way out and is counted by it**; while it is held up,
and if it does not return, nothing is counted. -/
theorem turned_runDelivery (hs : b.sends[n]? = some s) : b.Turned n s (b.runDelivery n) := by
  unfold runDelivery
  rw [hs]
  dsimp only
  cases hresult : s.result with
  | error fault =>
    have hdue : s.due b.files = .error fault := by
      unfold Send.due
      rw [hresult]
      split <;> rfl
    refine turned_resolve b _ (some (s.delivery.refuse fault).2) hs ?_ ?_ rfl rfl
    · rw [hdue]
      rfl
    · rw [hdue]
      rfl
  | ok message =>
    dsimp only
    cases hreading : s.reading? with
    | some reading =>
      obtain ⟨i, rest⟩ := reading
      refine turned_resumeDelivery hs hresult ?_ b.files
      simp [Send.due, hresult, hreading, Except.map]
    | none =>
      have hdue : s.due b.files =
          .ok (message.endpoint, s.delivery.taken b.files message.body) := by
        unfold Send.due
        rw [hresult, hreading]
        rfl
      unfold Delivery.taken at hdue
      dsimp only
      rcases hbegin : s.delivery.begin b.files with ⟨fault | i, files⟩
      · rw [hbegin] at hdue
        exact turned_concludeDelivery hs hdue files b.gates
      · rw [hbegin] at hdue
        refine turned_resumeDelivery hs hresult ?_ files
        rw [hdue, i.runThrough_fst b.files files]

/-! ## Deliveries one after another -/

/-- The send whose delivery returns when its job goes on, if it does, with what there was to go
by. -/
def returned? (b : Bridge) (n : Nat) : Option (Send × Receipt) :=
  b.sends[n]?.bind fun s =>
    if (b.runDelivery n).2 && s.delivery.returns b.switchboard (s.due b.files) then
      some (s, s.due b.files)
    else none

/-- Jobs of deliveries go on one after another, and in between anything else may happen to the
bridge that leaves the counters of outcomes alone. Kept are the deliveries that have returned. -/
inductive Calls (b : Bridge) : Bridge → List (Send × Receipt) → Prop
  | none : Calls b b []
  | deliver {b' : Bridge} {calls : List (Send × Receipt)} (n : Nat) : Calls b b' calls →
    Calls b (b'.runDelivery n).1 (calls ++ (b'.returned? n).toList)
  | elsewhere {b' b'' : Bridge} {calls : List (Send × Receipt)} : Calls b b' calls →
    (∀ series, series.isOutcome = true → b''.meter.value series = b'.meter.value series) →
    Calls b b'' calls

/-- The number of deliveries among some whose files were not written. -/
def unsaved (calls : List (Send × Receipt)) : Nat :=
  calls.countP fun (s, r) => s.delivery.isUnsaved r

/-- A delivery that returns is counted once, unless its file was not written. -/
theorem outcomes_runDelivery (b : Bridge) (n : Nat) :
    (b.runDelivery n).1.meter.outcomes + unsaved (b.returned? n).toList =
      b.meter.outcomes + (b.returned? n).toList.length := by
  unfold returned?
  cases hs : b.sends[n]? with
  | none =>
    have hsame : b.runDelivery n = (b, true) := by
      unfold runDelivery
      rw [hs]
    rw [hsame]
    rfl
  | some s =>
    rw [Option.bind_some]
    have hturned := turned_runDelivery hs
    generalize b.runDelivery n = turn at hturned ⊢
    cases hturned with
    | held s' hsends hdue hmeter =>
      dsimp only
      rw [hmeter]
      rfl
    | crashed hreturns hsends hmeter =>
      dsimp only
      rw [hreturns, hmeter]
      rfl
    | returned state moved? hreturns hcomes hsends hcounted =>
      have hmoves := Meter.outcomes_of_moves moved? fun series _ => hcounted series
      dsimp only
      rw [hreturns, hmoves, Bool.true_and, if_pos rfl]
      cases moved? with
      | none =>
        have hunsaved := hcomes.eq_none_iff.1 rfl
        simp [unsaved, hunsaved]
      | some series =>
        have hsaved : s.delivery.isUnsaved (s.due b.files) = false :=
          Bool.eq_false_iff.2 (mt hcomes.eq_none_iff.2 nofun)
        simp [unsaved, hsaved, hcomes.isOutcome]

/-- **The counters add up to the deliveries that have returned**, less those whose files were not
written. -/
theorem Calls.outcomes_add (h : b.Calls b' calls) :
    b'.meter.outcomes + unsaved calls = b.meter.outcomes + calls.length := by
  induction h with
  | none => rfl
  | @deliver b' calls n h ih =>
    have hstep := outcomes_runDelivery b' n
    have happend : unsaved (calls ++ (b'.returned? n).toList) =
        unsaved calls + unsaved (b'.returned? n).toList := List.countP_append
    rw [happend, List.length_append]
    omega
  | @elsewhere b' b'' calls h hsame ih =>
    rw [Meter.outcomes_congr hsame]
    exact ih

/-- **A delivery that returns is counted once, by its way out, unless a file was not written**, and
then it is not counted. So it is for any whole delivery, and after any number of jobs for the next
job, which may be held up and may break down; and the counters add up. -/
theorem outcomes_of_calls {β : Type} (d : Delivery Consumer) (registry : Registry β)
    (files : FileTree) (result : Except Fault Message) (h : b.Calls b' calls) :
    d.ComesOut registry (d.receipt files result) (d.run registry files result).state
      (d.run registry files result).moved? ∧
    ((d.run registry files result).moved? = none ↔
      ∃ message path, result = .ok message ∧ d.download? = some path ∧
        ((∃ fault, (Intake.saving files path).1 = .error fault) ∨ ¬ message.body.Whole)) ∧
    (∀ (n : Nat) (s : Send), b'.sends[n]? = some s → b'.Turned n s (b'.runDelivery n)) ∧
    b'.meter.outcomes + unsaved calls = b.meter.outcomes + calls.length := by
  have hcomes := d.comesOut_run registry files result
  refine ⟨hcomes, ?_, fun n s hs => turned_runDelivery hs, h.outcomes_add⟩
  exact hcomes.eq_none_iff.trans (d.isUnsaved_receipt_iff files result)

/-! ## A file that cannot be written -/

/-- A request whose response is to be saved to a file, or is to be handed to a clerk as it is. -/
def order (download? : Option String) : Send :=
  ⟨⟨"GET", ⟨['h', 't', 't', 'p'], [], [], none, none, .steps [], none, none⟩, [], []⟩,
    ⟨"http://depot/", .direct (.steady "clerk"), .empty, download?, 64⟩,
    ⟨none, .response (some 200) [] [.chunk (Octets.ofString "x")]⟩, none, .new⟩

/-- A depot where there is a directory in the place of the file. -/
def depot : Bridge :=
  { limit := 64
    timeout := 1
    now := 0
    switchboard := .empty
    pool := .idle 1
    gates := .empty
    inbound := []
    sends := [order (some "d"), order none]
    answers := []
    files := ⟨[(["d"], .directory)]⟩
    meter := .zero
    events := []
    requests := [] }

/-- The call for the delivery of the first order returns that the file cannot be made, and no
counter moves. -/
theorem uncounted_depot :
    depot.Calls (depot.runDelivery 0).1 [(order (some "d"), (order (some "d")).due depot.files)] ∧
      (depot.runDelivery 0).1.sends[0]?.map (·.handle) =
        some ⟨.sent, .resolved (.failed (Intake.cannotCreate "d" .isDirectory))⟩ ∧
      (depot.runDelivery 0).1.meter.outcomes = depot.meter.outcomes := by
  have hvalues : (depot.runDelivery 0).1.meter.values = [] := by decide +kernel
  have hreturns : (depot.runDelivery 0).2 && (order (some "d")).delivery.returns depot.switchboard
      ((order (some "d")).due depot.files) := by decide +kernel
  have hcalls : depot.Calls (depot.runDelivery 0).1 ([] ++ (depot.returned? 0).toList) :=
    .deliver 0 .none
  have hreturned : depot.returned? 0 =
      some (order (some "d"), (order (some "d")).due depot.files) := if_pos hreturns
  rw [hreturned] at hcalls
  refine ⟨hcalls, by decide +kernel, ?_⟩
  rw [Meter.outcomes, Meter.touched, hvalues]
  rfl

/-- Of both orders of the depot the second one is counted, and the first one is not. -/
theorem outcomes_of_calls_depot : ∃ b' calls, depot.Calls b' calls ∧ calls.length = 2 ∧
    unsaved calls = 1 ∧ b'.meter.outcomes = 1 ∧ b'.meter.value (.responsesDelivered 200) = 1 ∧
    ((order (some "d")).delivery.run depot.switchboard.responses depot.files
      (order (some "d")).result).moved? = none := by
  have hcalls : depot.Calls ((depot.runDelivery 0).1.runDelivery 1).1
      (([] ++ (depot.returned? 0).toList) ++ ((depot.runDelivery 0).1.returned? 1).toList) :=
    .deliver 1 (.deliver 0 .none)
  have hlength : (([] ++ (depot.returned? 0).toList) ++
      ((depot.runDelivery 0).1.returned? 1).toList).length = 2 := by decide +kernel
  have hunsaved : unsaved (([] ++ (depot.returned? 0).toList) ++
      ((depot.runDelivery 0).1.returned? 1).toList) = 1 := by decide +kernel
  obtain ⟨-, hnone, -, hsum⟩ := outcomes_of_calls (order (some "d")).delivery
    depot.switchboard.responses depot.files (order (some "d")).result hcalls
  rw [hlength, hunsaved] at hsum
  have hzero : depot.meter.outcomes = 0 := rfl
  refine ⟨_, _, hcalls, hlength, hunsaved, by omega, by decide +kernel, hnone.2 ?_⟩
  exact ⟨_, "d", rfl, rfl, .inl ⟨Intake.cannotCreate "d" .isDirectory, by decide +kernel⟩⟩

end Bridge

end Correlator
