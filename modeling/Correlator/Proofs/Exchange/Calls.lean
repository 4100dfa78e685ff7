import Correlator.Exchange
import Correlator.Proofs.Tables

/-!
# The calls of an exchange

What each change to an exchange does to the call of an id and to the table of parked ids, and that
it does nothing to other ids.

* `Exchange.isParked`: whether an id is in the table.
* `Exchange.call?_alter`, `Exchange.isParked_withdraw`, `Exchange.call?_park`: the changes that all
  steps are made of.
* `Exchange.isParked_reply`, `Exchange.reply_snd`: a reply takes the id out, and is taken if there
  is somebody to take it.
* `Exchange.ids`: the ids of all calls; only a call that parks adds one.
* `Exchange.front`: what only the end of an exchange changes.
-/

namespace Correlator

namespace Call

@[simp] theorem take_id (c : Call) (r : Reply) : (c.take r).id = c.id := by
  unfold take
  split <;> rfl

/-- No reply takes a call back to its check. -/
theorem phase_of_take {c : Call} {r : Reply} (h : (c.take r).phase = .parked) :
    c.phase = .parked := by
  unfold take at h
  split at h
  · exact h
  · exact h
  · cases h
  · exact h
  · exact h
  · exact h

@[simp] theorem await_id (c : Call) (deadline : Nat) : (c.await deadline).id = c.id := by
  unfold await
  split <;> rfl

variable {c? : Option Call}

theorem phase_of_isDispatching (h : c?.any isDispatching = true) :
    c?.map phase = some .dispatching := by
  cases c? with
  | none => cases h
  | some c => simpa [isDispatching] using h

theorem phase_of_isLate {now : Nat} (h : (c?.any fun c => c.isLate now) = true) :
    ∃ deadline, c?.map phase = some (.waiting deadline) ∧ deadline ≤ now := by
  cases c? with
  | none => cases h
  | some c =>
    simp only [Option.any_some, isLate] at h
    split at h
    · rename_i deadline hc
      exact ⟨deadline, congrArg some hc, of_decide_eq_true h⟩
    · cases h

end Call

namespace Exchange

variable (x : Exchange) (id id' : String)

/-- Whether an id is in the table of parked ids. -/
def isParked : Bool := x.parked.contains id

theorem isParked_iff : x.isParked id = true ↔ id ∈ x.parked := by simp [isParked]

/-! ## Changes to calls -/

/-- Only the call of the id is changed. -/
theorem call?_alter {f : Call → Call} (hf : ∀ c, (f c).id = c.id) :
    (x.alter id f).call? id' = if id' = id then (x.call? id').map f else x.call? id' := by
  have hid : ∀ c : Call, (if c.id = id then f c else c).id = c.id := by
    intro c
    split
    · exact hf c
    · rfl
  have hfind : (x.alter id f).call? id' =
      (x.call? id').map fun c => if c.id = id then f c else c := by
    unfold alter call?
    rw [List.find?_map]
    congr 2
    funext c
    exact congrArg (fun i => decide (i = id')) (hid c)
  rw [hfind]
  cases hc : x.call? id' with
  | none => simp
  | some c =>
    have hc' : c.id = id' := by simpa using List.find?_some hc
    rw [← hc']
    by_cases h : c.id = id <;> simp [h]

/-- The call of an id that is changed twice. -/
theorem alter_alter {f g : Call → Call} (hf : ∀ c, (f c).id = c.id) :
    (x.alter id f).alter id g = x.alter id fun c => g (f c) := by
  unfold alter
  rw [List.map_map]
  congr 1
  refine List.map_congr_left fun c _ => ?_
  by_cases h : c.id = id <;> simp [h, hf]

/-! ## Changes to the table -/

theorem isParked_withdraw :
    (x.withdraw id).isParked id' = if id' = id then false else x.isParked id' := by
  rw [Bool.eq_iff_iff]
  by_cases h : id' = id <;> simp [isParked_iff, withdraw, h]

theorem isParked_park :
    (x.park id).isParked id' = if id' = id then true else x.isParked id' := by
  rw [Bool.eq_iff_iff]
  by_cases h : id' = id <;> simp [isParked_iff, park, h]

variable {x id} in
/-- A call that parks is the call of its id, if the id is new. -/
theorem call?_park (h : x.call? id = none) :
    (x.park id).call? id' = if id' = id then some ⟨id, .parked, none⟩ else x.call? id' := by
  unfold park call? at *
  rw [List.find?_append]
  by_cases hid : id' = id
  · subst hid
    simp [h]
  · simp [hid, Ne.symm hid]

/-! ## Replies -/

theorem call?_conclude (r : Reply) :
    (x.conclude id r).call? id' =
      if id' = id then (x.call? id').map fun c => { c with phase := .answered r }
      else x.call? id' :=
  call?_alter _ _ _ fun _ => rfl

theorem call?_leave :
    (x.leave id).call? id' =
      if id' = id then (x.call? id').map fun c => { c with phase := .leaving true }
      else x.call? id' :=
  call?_alter _ _ _ fun _ => rfl

theorem call?_letGo :
    (x.letGo id).call? id' =
      if id' = id then (x.call? id').map fun c => { c with phase := .leaving false }
      else x.call? id' :=
  call?_alter _ _ _ fun _ => rfl

/-- A call that leaves, lets go and gives up at a stroke is concluded. -/
theorem giveUp_letGo_leave : ((x.leave id).letGo id).giveUp id = x.giveUp id := by
  have hleave : (x.leave id).letGo id = x.letGo id := alter_alter _ _ fun _ => rfl
  rw [hleave]
  exact alter_alter (x.withdraw id) id fun _ => rfl

variable {x id} in
/-- A reply for an id that is not parked does nothing. -/
theorem reply_of_not_isParked (h : x.isParked id = false) (r : Reply) :
    x.reply id r = (x, false) := by
  show (if x.isParked id then _ else _) = _
  rw [h]
  rfl

variable {x id} in
/-- Whether a reply is taken: the id has to be parked, and somebody there. -/
theorem reply_snd (h : x.isParked id = true) (r : Reply) :
    (x.reply id r).2 = (x.call? id).any Call.isThere := by
  unfold isParked at h
  simp only [reply, h, if_true]

theorem isParked_reply (r : Reply) :
    (x.reply id r).1.isParked id' = if id' = id then false else x.isParked id' := by
  cases h : x.isParked id with
  | false =>
    rw [reply_of_not_isParked h]
    split
    · rename_i hid
      rw [hid, h]
    · rfl
  | true =>
    unfold isParked at h
    simp only [reply, h, if_true]
    exact x.isParked_withdraw id id'

variable {x id} in
/-- A call that has its reply already is answered as soon as its job has ended well. -/
theorem call?_joined {c : Call} {r : Reply} (hc : x.call? id = some c)
    (hphase : c.phase = .dispatching) (hr : c.early? = some r) (deadline : Nat) :
    (x.joined id (.ran .forwarded) deadline).call? id = some { c with phase := .answered r } := by
  have hjoined : x.joined id (.ran .forwarded) deadline = x.alter id (·.await deadline) := by
    simp [joined, hc, Call.isDispatching, hphase, DispatchEnd.rejection?]
  rw [hjoined, call?_alter _ _ _ fun c => c.await_id deadline, hc]
  simp [Call.await, hr]

/-! ## The ids of calls -/

/-- The ids of all calls that there have been. -/
def ids : List String := x.calls.map Call.id

variable {x} in
theorem call?_of_mem {c : Call} (hc : c ∈ x.calls) (hx : x.ids.Nodup) : x.call? c.id = some c :=
  find?_of_mem Call.id hc hx

variable {x id} in
theorem not_mem_ids (h : x.call? id = none) : id ∉ x.ids := by
  intro hid
  obtain ⟨c, hc, rfl⟩ := List.mem_map.1 hid
  simpa using List.find?_eq_none.1 h c hc

theorem ids_alter {f : Call → Call} (hf : ∀ c, (f c).id = c.id) : (x.alter id f).ids = x.ids := by
  unfold ids alter
  rw [List.map_map]
  refine List.map_congr_left fun c _ => ?_
  show (if c.id = id then f c else c).id = c.id
  split
  · exact hf c
  · rfl

theorem ids_conclude (r : Reply) : (x.conclude id r).ids = x.ids := ids_alter _ _ fun _ => rfl

@[simp] theorem ids_leave : (x.leave id).ids = x.ids := ids_alter _ _ fun _ => rfl

@[simp] theorem ids_letGo : (x.letGo id).ids = x.ids := ids_alter _ _ fun _ => rfl

@[simp] theorem ids_giveUp : (x.giveUp id).ids = x.ids := ids_conclude ..

@[simp] theorem ids_hangUp : (x.hangUp id).ids = x.ids := ids_alter _ _ fun _ => rfl

@[simp] theorem ids_checkOpen : (x.checkOpen id).ids = x.ids := by
  unfold checkOpen
  split
  · exact ids_alter _ _ fun _ => rfl
  · exact ids_conclude ..

@[simp] theorem ids_joined (e : DispatchEnd) (deadline : Nat) :
    (x.joined id e deadline).ids = x.ids := by
  unfold joined
  split
  · split
    · exact ids_conclude ..
    · exact ids_alter _ _ fun c => c.await_id deadline
  · rfl

theorem ids_reply (r : Reply) : (x.reply id r).1.ids = x.ids := by
  unfold reply
  split
  · exact ids_alter _ _ fun c => c.take_id r
  · rfl

/-! ## What calls and replies leave alone -/

/-- All of an exchange but its calls and its table. -/
def front (x : Exchange) : List String × Consumer × Bool := (x.attributes, x.consumer, x.isOpen)

theorem front_checkOpen : (x.checkOpen id).front = x.front := by
  unfold checkOpen
  split <;> rfl

theorem front_joined (e : DispatchEnd) (deadline : Nat) :
    (x.joined id e deadline).front = x.front := by
  unfold joined
  split
  · split <;> rfl
  · rfl

theorem front_reply (r : Reply) : (x.reply id r).1.front = x.front := by
  unfold reply
  split <;> rfl

theorem consumer_disconnect : x.disconnect.consumer = x.consumer := by
  have hfold : ∀ (ids : List String) (y : Exchange),
      (ids.foldl drain y).consumer = y.consumer := by
    intro ids
    induction ids with
    | nil => exact fun _ => rfl
    | cons id ids ih =>
      exact fun y => (ih _).trans
        (congrArg (fun front => front.2.1) (y.front_reply id .sourceStopped))
  exact hfold _ x.close

@[simp] theorem isOpen_drain : (x.drain id).isOpen = x.isOpen :=
  congrArg (fun front => front.2.2) (x.front_reply id .sourceStopped)

end Exchange

end Correlator
