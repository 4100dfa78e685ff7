import Correlator.Proofs.Bridge.Jobs
import Correlator.Proofs.Exchange.Tended
import Correlator.Proofs.Switchboard.Turns

/-!
# What is handed out for no send

A bridge hands events out for its sends, for the requests that came in, and when somebody calls a
listener that was kept. An account is kept of the latter two.

* `Bridge.pending`: how often a task is on hand, at a gate or in line.
* `Tally`: the calls that were made for no send; `Tally.events`: the events that these handed out.
* `Bridge.Dispatches`: a call is that of the job of a request.
* `Bridge.Tallied`: a tally is that of a bridge: a request has one task at most, and no call was
  made for it as long as there is one.
* `Bridge.Tallied.come`, `Bridge.Tallied.make`: a request comes, and its job makes a call.
-/

namespace Correlator

/-! ## Events -/

/-- What is handed out in the course of one voyage is added to what all have handed out. -/
theorem perm_flatMap_set {α β : Type*} {f : α → List β} {l : List α} {n : Nat} {a a' : α}
    {more : List β} (h : l[n]? = some a) (hf : f a' = f a ++ more) :
    ((l.set n a').flatMap f).Perm (l.flatMap f ++ more) := by
  induction l generalizing n with
  | nil => cases h
  | cons x l ih =>
    cases n with
    | zero =>
      cases h
      simp only [List.set_cons_zero, List.flatMap_cons, hf, List.append_assoc]
      exact List.perm_append_comm.append_left _
    | succ n =>
      simp only [List.set_cons_succ, List.flatMap_cons, List.append_assoc]
      exact (ih h).append_left _

theorem getElem?_of_prefix {α : Type*} {l l' : List α} {n : Nat} {a : α} (h : l <+: l')
    (ha : l[n]? = some a) : l'[n]? = some a := by
  obtain ⟨more, rfl⟩ := h
  rw [List.getElem?_append_left (List.getElem?_eq_some_iff.1 ha).1, ha]

/-- What a change leaves alone is the same for all. -/
theorem map_modify {α β : Type*} {f : α → α} {g : α → β} (h : ∀ a, g (f a) = g a) {l : List α}
    {n : Nat} : (l.modify n f).map g = l.map g := by
  refine List.ext_getElem? fun m => ?_
  rw [List.getElem?_map, List.getElem?_map, List.getElem?_modify]
  cases l[m]? with
  | none => rfl
  | some a => by_cases hn : n = m <;> simp [hn, h]

theorem ConsumerCall.handed_append (calls calls' : List ConsumerCall) :
    handed (calls ++ calls') = handed calls ++ handed calls' := by
  simp [handed]

/-- The calls that were made for no send. -/
structure Tally where
  /-- The call that the job of each request has made, if it has made one. -/
  dispatched : List (Option ConsumerCall)
  /-- The calls of listeners that somebody has kept. -/
  kept : List ConsumerCall

namespace Tally

variable {r r' r'' : Tally} {n : Nat} {call : ConsumerCall}

/-- No call was made yet. -/
def empty : Tally := ⟨[], []⟩

/-- The events that were handed out. -/
def events (r : Tally) : List (String × Event) :=
  (r.dispatched.flatMap fun call? => ConsumerCall.handed call?.toList) ++
    ConsumerCall.handed r.kept

/-- A request comes. -/
def come (r : Tally) : Tally := { r with dispatched := r.dispatched ++ [none] }

/-- The job of a request makes a call. -/
def make (r : Tally) (n : Nat) (call : ConsumerCall) : Tally :=
  { r with dispatched := r.dispatched.set n (some call) }

/-- Listeners that somebody has kept are called. -/
def hear (r : Tally) (calls : List ConsumerCall) : Tally := { r with kept := r.kept ++ calls }

theorem events_come (r : Tally) : r.come.events = r.events := by
  simp [come, events, ConsumerCall.handed]

theorem events_make (h : r.dispatched[n]? = some none) (call : ConsumerCall) :
    (r.make n call).events.Perm (r.events ++ ConsumerCall.handed [call]) := by
  have hset : ((r.dispatched.set n (some call)).flatMap fun call? =>
      ConsumerCall.handed call?.toList).Perm _ := perm_flatMap_set h (List.nil_append _).symm
  refine (hset.append_right _).trans ?_
  simp only [events, List.append_assoc]
  exact List.perm_append_comm.append_left _

theorem events_hear (r : Tally) (calls : List ConsumerCall) :
    (r.hear calls).events = r.events ++ ConsumerCall.handed calls := by
  simp [hear, events, ConsumerCall.handed_append]

@[simp] theorem hear_nil (r : Tally) : r.hear [] = r := by simp [hear]

theorem hear_hear (r : Tally) (calls calls' : List ConsumerCall) :
    (r.hear calls).hear calls' = r.hear (calls ++ calls') := by
  simp [hear]

/-- Requests come and their jobs make calls; the calls that were made stay. -/
structure Grows (r r' : Tally) : Prop where
  dispatched : ∀ (n : Nat) (call : ConsumerCall), r.dispatched[n]? = some (some call) →
    r'.dispatched[n]? = some (some call)
  kept : r'.kept = r.kept

theorem Grows.refl (r : Tally) : r.Grows r := ⟨fun _ _ h => h, rfl⟩

theorem Grows.trans (h : r.Grows r') (h' : r'.Grows r'') : r.Grows r'' :=
  ⟨fun n call hcall => h'.dispatched n call (h.dispatched n call hcall), h'.kept.trans h.kept⟩

theorem grows_come (r : Tally) : r.Grows r.come :=
  ⟨fun _ _ => getElem?_of_prefix (List.prefix_append _ _), rfl⟩

theorem grows_make (h : r.dispatched[n]? = some none) (call : ConsumerCall) :
    r.Grows (r.make n call) := by
  refine ⟨fun m call' hcall => ?_, rfl⟩
  have hne : n ≠ m := by
    rintro rfl
    cases h.symm.trans hcall
  exact (List.getElem?_set_ne hne).trans hcall

theorem Grows.hear (h : r.Grows r') (calls : List ConsumerCall) :
    (r.hear calls).Grows (r'.hear calls) :=
  ⟨h.dispatched, congrArg (· ++ calls) h.kept⟩

end Tally

/-! ## Consumers -/

namespace Switchboard

variable {s s' : Switchboard}

/-- The consumers of the exchanges. -/
def consumers (s : Switchboard) : List Consumer := s.exchangeList.map (·.consumer)

theorem consumers_alterExchange {f : Exchange → Exchange} (hf : ∀ x, (f x).consumer = x.consumer)
    (s : Switchboard) (n : Nat) : (s.alterExchange n f).consumers = s.consumers := map_modify hf

theorem consumers_of_exchange? {n : Nat} {x : Exchange} (hx : s.exchange? n = some x) :
    s.consumers[n]? = some x.consumer := by
  rw [consumers, List.getElem?_map, show s.exchangeList[n]? = some x from hx]
  rfl

theorem consumers_turn (h : s.Turn s') : s.consumers <+: s'.consumers := by
  have hsnoc : ∀ x, s'.exchangeList = s.exchangeList ++ [x] → s.consumers <+: s'.consumers :=
    fun x hs => ⟨[x.consumer], by simp [consumers, hs]⟩
  have hsame : s'.exchangeList.map (·.consumer) = s.exchangeList.map (·.consumer) →
      s.consumers <+: s'.consumers := fun he => ⟨[], (List.append_nil _).trans he.symm⟩
  cases h with
  | same _ hs => exact hsame (congrArg (List.map _) hs)
  | comes _ _ attributes k _ hs => exact hsnoc _ hs
  | inVain attributes k _ hs => exact hsnoc _ hs
  | goes _ _ l _ hs =>
    exact hsame ((congrArg (List.map _) hs).trans (map_modify fun x => x.consumer_disconnect))

/-- Exchanges come behind those that there are, and keep their consumers. -/
theorem consumers_turns (h : s.Turns s') : s.consumers <+: s'.consumers := by
  induction h with
  | refl => exact List.prefix_rfl
  | tail _ hturn ih => exact ih.trans (consumers_turn hturn)

end Switchboard

/-! ## Tallies of a bridge -/

namespace Bridge

variable {b b' : Bridge} {r : Tally} {n : Nat} {call : ConsumerCall} {hands hands' : List Task}

/-- How often a task is on hand, at a gate or in line. -/
def pending (b : Bridge) (hands : List Task) (t : Task) : Nat :=
  hands.count t + (b.gates.waiting.map (·.2)).count t + b.pool.line.count t

theorem pending_cons (b : Bridge) (t : Task) (hands : List Task) (t' : Task) :
    b.pending (t :: hands) t' = b.pending hands t' + if t = t' then 1 else 0 := by
  simp only [pending, List.count_cons, beq_iff_eq]
  omega

/-- The requests that came in, each with the number of the exchange that it came to. -/
def errands (b : Bridge) : List (Nat × Dispatch) := b.inbound.map fun i => (i.exchange, i.dispatch)

/-- A call is that of the job of a request: the consumer of the exchange that the request came to is
handed an event that is made of the request. -/
def Dispatches (b : Bridge) (n : Nat) (call : ConsumerCall) : Prop :=
  ∃ k d read, b.errands[n]? = some (k, d) ∧
    b.switchboard.consumers[k]? = some call.consumer ∧ (d.conclude read).2.1 = some call.event ∧
    call.returned = !call.consumer.fails call.event

theorem Dispatches.mono (h : b.Dispatches n call) (herrands : b.errands <+: b'.errands)
    (hconsumers : b.switchboard.consumers <+: b'.switchboard.consumers) : b'.Dispatches n call := by
  obtain ⟨k, d, read, herrand, hconsumer, hcall⟩ := h
  exact ⟨k, d, read, getElem?_of_prefix herrands herrand, getElem?_of_prefix hconsumers hconsumer,
    hcall⟩

/-- The calls of a tally are those of the requests of a bridge, some of whose tasks are on hand. -/
structure Tallied (b : Bridge) (r : Tally) (hands : List Task) : Prop where
  length : r.dispatched.length = b.errands.length
  /-- A request has one task at most. -/
  once : ∀ n, b.pending hands (.dispatch n) ≤ 1
  /-- As long as there is one, no call was made for the request. -/
  owed : ∀ n, 0 < b.pending hands (.dispatch n) → r.dispatched[n]? = some none
  made : ∀ (n : Nat) (call : ConsumerCall), r.dispatched[n]? = some (some call) →
    b.Dispatches n call

namespace Tallied

/-- Tasks may be taken up or laid down. -/
theorem shift (h : b.Tallied r hands) (herrands : b'.errands = b.errands)
    (hconsumers : b.switchboard.consumers <+: b'.switchboard.consumers)
    (hle : ∀ n, b'.pending hands' (.dispatch n) ≤ b.pending hands (.dispatch n)) :
    b'.Tallied r hands' where
  length := herrands ▸ h.length
  once n := Nat.le_trans (hle n) (h.once n)
  owed n hpos := h.owed n (Nat.lt_of_lt_of_le hpos (hle n))
  made n call hcall := (h.made n call hcall).mono (herrands ▸ List.prefix_rfl) hconsumers

/-- A request comes, and its task comes into the hands of the bridge. -/
theorem come (h : b.Tallied r hands) {errand : Nat × Dispatch}
    (herrands : b'.errands = b.errands ++ [errand])
    (hconsumers : b.switchboard.consumers <+: b'.switchboard.consumers)
    (hsame : ∀ t, b'.pending hands t = b.pending hands t) :
    b'.Tallied r.come (.dispatch b.errands.length :: hands) := by
  have hnew : b.pending hands (.dispatch b.errands.length) = 0 := by
    refine Nat.eq_zero_of_not_pos fun hpos => ?_
    have hlt := (List.getElem?_eq_some_iff.1 (h.owed _ hpos)).1
    exact Nat.lt_irrefl _ (h.length ▸ hlt)
  have hmore : ∀ n, b'.pending (.dispatch b.errands.length :: hands) (.dispatch n) =
      b.pending hands (.dispatch n) + if b.errands.length = n then 1 else 0 := fun n => by
    rw [pending_cons, hsame]
    simp only [Task.dispatch.injEq]
  constructor
  · simp [Tally.come, herrands, h.length]
  · intro n
    rw [hmore]
    by_cases hn : b.errands.length = n
    · subst hn
      simp [hnew]
    · simpa [hn] using h.once n
  · intro n hpos
    by_cases hn : b.errands.length = n
    · subst hn
      rw [← h.length]
      exact List.getElem?_concat_length
    · rw [hmore, if_neg hn] at hpos
      exact getElem?_of_prefix (List.prefix_append _ _) (h.owed n hpos)
  · intro n call hcall
    rcases Nat.lt_or_ge n r.dispatched.length with hlt | hge
    · refine (h.made n call ?_).mono (herrands ▸ List.prefix_append _ _) hconsumers
      rwa [Tally.come, List.getElem?_append_left hlt] at hcall
    · rw [Tally.come, List.getElem?_append_right hge] at hcall
      cases List.mem_singleton.1 (List.mem_of_getElem? hcall)

/-- The job of a request makes its call, and is done with. -/
theorem make (h : b.Tallied r (.dispatch n :: hands)) (hcall : b.Dispatches n call) :
    b.Tallied (r.make n call) hands := by
  have hpos : 0 < b.pending (.dispatch n :: hands) (.dispatch n) := by simp [pending_cons]
  have hlt := (List.getElem?_eq_some_iff.1 (h.owed n hpos)).1
  constructor
  · rw [Tally.make, List.length_set]
    exact h.length
  · intro m
    have honce := h.once m
    rw [pending_cons] at honce
    omega
  · intro m hpos'
    have hne : n ≠ m := by
      rintro rfl
      have honce := h.once n
      rw [pending_cons, if_pos rfl] at honce
      omega
    rw [Tally.make, List.getElem?_set_ne hne]
    refine h.owed m ?_
    rw [pending_cons]
    omega
  · intro m call' hcall'
    by_cases hm : n = m
    · subst hm
      rw [Tally.make, List.getElem?_set_self hlt] at hcall'
      cases hcall'
      exact hcall
    · rw [Tally.make, List.getElem?_set_ne hm] at hcall'
      exact h.made m call' hcall'

end Tallied

end Bridge

end Correlator
