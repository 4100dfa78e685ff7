import Correlator.Proofs.Exchange.Calls

/-!
# Calls that wait

What becomes of the calls of an exchange while others come, and what time has to do with it.

* `Call.Goes`: what becomes of a call when some deadline is given to those that begin to wait.
* `Exchange.Goes`: this becomes of each call of an exchange; jobs that end, replies, time that runs
  out and the end of an exchange do nothing else (`Exchange.goes_joined`, `Exchange.goes_reply`,
  `Exchange.goes_expire`, `Exchange.goes_disconnect`).
* `Exchange.now_lt_of_expire`: whoever still waits after time has run out has time left.
* `Exchange.receive`: a call that comes, and what it does to the others.
-/

namespace Correlator

namespace Call

/-- What becomes of a call: it stays where it is, is answered, or has heard of its job and waits
until a deadline that was given to it. -/
structure Goes (deadline? : Option Nat) (c c' : Call) : Prop where
  id : c'.id = c.id
  phase : c'.phase = c.phase ∨ (∃ r, c'.phase = .answered r) ∨
    ∃ deadline, deadline? = some deadline ∧ c.phase = .dispatching ∧ c'.phase = .waiting deadline

namespace Goes

variable {deadline? : Option Nat} {c c' c'' : Call}

theorem refl (c : Call) : c.Goes deadline? c := ⟨rfl, .inl rfl⟩

theorem trans (h : c.Goes deadline? c') (h' : c'.Goes deadline? c'') : c.Goes deadline? c'' := by
  refine ⟨h'.id.trans h.id, ?_⟩
  rcases h'.phase with hsame | hanswered | ⟨deadline, hd, hwas, hwaits⟩
  · rw [hsame]
    exact h.phase
  · exact .inr (.inl hanswered)
  · rcases h.phase with hsame | ⟨r, hanswered⟩ | ⟨deadline', -, -, hwaits'⟩
    · exact .inr (.inr ⟨deadline, hd, hsame ▸ hwas, hwaits⟩)
    · cases hanswered.symm.trans hwas
    · cases hwaits'.symm.trans hwas

theorem answered (c : Call) (r : Reply) : c.Goes deadline? { c with phase := .answered r } :=
  ⟨rfl, .inr (.inl ⟨r, rfl⟩)⟩

/-- A call that no deadline is given to may begin to wait no more than one that is given some. -/
theorem mono (h : c.Goes none c') : c.Goes deadline? c' := by
  refine ⟨h.id, ?_⟩
  rcases h.phase with hsame | hanswered | ⟨deadline, hd, -, -⟩
  · exact .inl hsame
  · exact .inr (.inl hanswered)
  · cases hd

end Goes

theorem goes_take (c : Call) (r : Reply) {deadline? : Option Nat} :
    c.Goes deadline? (c.take r) := by
  refine ⟨c.take_id r, ?_⟩
  unfold take
  split
  · exact .inl rfl
  · exact .inl rfl
  · exact .inr (.inl ⟨r, rfl⟩)
  · exact .inl rfl
  · exact .inl rfl
  · exact .inl rfl

theorem goes_await {c : Call} (hc : c.phase = .dispatching) (deadline : Nat) :
    c.Goes (some deadline) (c.await deadline) := by
  refine ⟨c.await_id deadline, ?_⟩
  unfold await
  split
  · exact .inr (.inl ⟨_, rfl⟩)
  · exact .inr (.inr ⟨deadline, rfl, hc, rfl⟩)

end Call

namespace Exchange

/-- What becomes of the calls of an exchange, if no two of them have one id. -/
structure Goes (deadline? : Option Nat) (x x' : Exchange) : Prop where
  ids : x'.ids = x.ids
  calls : x.ids.Nodup →
    ∃ f : Call → Call, x'.calls = x.calls.map f ∧ ∀ c ∈ x.calls, c.Goes deadline? (f c)

variable {deadline? : Option Nat} {x x' x'' : Exchange} {id : String}

namespace Goes

theorem refl (x : Exchange) : x.Goes deadline? x :=
  ⟨rfl, fun _ => ⟨fun c => c, (List.map_id _).symm, fun c _ => .refl c⟩⟩

theorem trans (h : x.Goes deadline? x') (h' : x'.Goes deadline? x'') :
    x.Goes deadline? x'' := by
  refine ⟨h'.ids.trans h.ids, fun hx => ?_⟩
  obtain ⟨f, hf, hgoes⟩ := h.calls hx
  obtain ⟨g, hg, hgoes'⟩ := h'.calls (h.ids ▸ hx)
  refine ⟨g ∘ f, by rw [hg, hf, List.map_map], fun c hc => (hgoes c hc).trans (hgoes' (f c) ?_)⟩
  rw [hf]
  exact List.mem_map_of_mem hc

theorem mono (h : x.Goes none x') : x.Goes deadline? x' := by
  refine ⟨h.ids, fun hx => ?_⟩
  obtain ⟨f, hf, hgoes⟩ := h.calls hx
  exact ⟨f, hf, fun c hc => (hgoes c hc).mono⟩

/-- The call of an id stays the call of this id. -/
theorem call? (h : x.Goes deadline? x') (hx : x.ids.Nodup) {c : Call}
    (hc : x.call? id = some c) : ∃ c', x'.call? id = some c' ∧ c.Goes deadline? c' := by
  obtain ⟨f, hf, hgoes⟩ := h.calls hx
  have hmem : c ∈ x.calls := List.mem_of_find?_eq_some hc
  have hid : c.id = id := by simpa using List.find?_some hc
  have hfc : f c ∈ x'.calls := hf ▸ List.mem_map_of_mem hmem
  refine ⟨f c, ?_, hgoes c hmem⟩
  rw [← hid, ← (hgoes c hmem).id]
  exact call?_of_mem hfc (h.ids ▸ hx)

end Goes

theorem goes_alter {f : Call → Call} (hf : ∀ c, (f c).id = c.id)
    (h : x.ids.Nodup → ∀ c ∈ x.calls, c.id = id → c.Goes deadline? (f c)) :
    x.Goes deadline? (x.alter id f) := by
  refine ⟨ids_alter x id hf, fun hx => ⟨_, rfl, fun c hc => ?_⟩⟩
  split
  · rename_i hid
    exact h hx c hc hid
  · exact .refl c

/-- It does not matter to the calls which ids are parked, and whether the exchange is open. -/
theorem goes_of_calls_eq (h : x'.calls = x.calls) : x.Goes deadline? x' :=
  ⟨congrArg (List.map Call.id) h, fun hx => h ▸ (Goes.refl x).calls hx⟩

theorem goes_conclude (x : Exchange) (id : String) (r : Reply) :
    x.Goes deadline? (x.conclude id r) := by
  have hwithdraw : x.Goes deadline? (x.withdraw id) := goes_of_calls_eq rfl
  exact hwithdraw.trans (goes_alter (fun _ => rfl) fun _ c _ _ => .answered c r)

/-- A job has ended: its call is answered, or waits from now on. -/
theorem goes_joined (x : Exchange) (id : String) (e : DispatchEnd) (deadline : Nat) :
    x.Goes (some deadline) (x.joined id e deadline) := by
  unfold joined
  split
  · rename_i hdispatching
    split
    · exact x.goes_conclude id _
    · refine goes_alter (fun c => c.await_id deadline) fun hx c hc hid => ?_
      have hcall : x.call? id = some c := hid ▸ call?_of_mem hc hx
      rw [hcall] at hdispatching
      exact Call.goes_await (of_decide_eq_true hdispatching) deadline
  · exact .refl x

theorem goes_reply (x : Exchange) (id : String) (r : Reply) :
    x.Goes deadline? (x.reply id r).1 := by
  unfold reply
  split
  · have hwithdraw : x.Goes deadline? (x.withdraw id) := goes_of_calls_eq rfl
    exact hwithdraw.trans (goes_alter (fun c => c.take_id r) fun _ c _ _ => c.goes_take r)
  · exact .refl x

theorem goes_disconnect (x : Exchange) : x.Goes deadline? x.disconnect := by
  have hfold : ∀ (ids : List String) (y : Exchange), y.Goes deadline? (ids.foldl drain y) := by
    intro ids
    induction ids with
    | nil => exact .refl
    | cons id ids ih => exact fun y => (y.goes_reply id .sourceStopped).trans (ih (y.drain id))
  have hclose : x.Goes deadline? x.close := goes_of_calls_eq rfl
  exact hclose.trans (hfold x.close.parked x.close)

theorem goes_expire (x : Exchange) (now : Nat) : x.Goes deadline? (x.expire now) := by
  have hfold : ∀ (cs : List Call) (y : Exchange),
      y.Goes deadline? (cs.foldl (fun y c => y.giveUp c.id) y) := by
    intro cs
    induction cs with
    | nil => exact .refl
    | cons c cs ih => exact fun y => (y.goes_conclude c.id .timedOut).trans (ih _)
  exact hfold _ x

/-! ## Time that runs out -/

theorem calls_foldl_giveUp (cs : List Call) (x : Exchange) :
    (cs.foldl (fun x c => x.giveUp c.id) x).calls =
      x.calls.map fun c =>
        if c.id ∈ cs.map Call.id then { c with phase := .answered .timedOut } else c := by
  induction cs generalizing x with
  | nil => simp
  | cons c cs ih =>
    rw [List.foldl_cons, ih]
    show ((x.calls.map fun c' => if c'.id = c.id then _ else c').map _) = _
    rw [List.map_map]
    refine List.map_congr_left fun c' _ => ?_
    by_cases hc : c'.id = c.id
    · simp [hc]
    · simp [hc]

/-- Whoever still waits after time has run out has time left. -/
theorem now_lt_of_expire {now deadline : Nat} {c : Call} (hc : c ∈ (x.expire now).calls)
    (hphase : c.phase = .waiting deadline) : now < deadline := by
  unfold expire at hc
  rw [calls_foldl_giveUp] at hc
  obtain ⟨c₀, hc₀, rfl⟩ := List.mem_map.1 hc
  split at hphase
  · cases hphase
  · rename_i hnotlate
    by_contra hle
    refine hnotlate (List.mem_map_of_mem (List.mem_filter.2 ⟨hc₀, ?_⟩))
    simpa [Call.isLate, hphase] using hle

/-! ## Calls that come -/

/-- A call comes: it parks, and checks that the exchange is open. -/
def receive (x : Exchange) (id : String) : Exchange := (x.park id).checkOpen id

/-- A call that comes is dispatched or turned down, and the others stay where they are. -/
theorem calls_receive (h : x.call? id = none) :
    ∃ phase, (phase = .dispatching ∨ ∃ r, phase = .answered r) ∧
      (x.receive id).calls = x.calls ++ [⟨id, phase, none⟩] := by
  have hothers : ∀ f : Call → Call, (x.calls.map fun c => if c.id = id then f c else c) =
      x.calls := by
    intro f
    refine (List.map_congr_left fun c hc => if_neg ?_).trans (List.map_id _)
    rintro rfl
    exact not_mem_ids h (List.mem_map_of_mem hc)
  unfold receive checkOpen
  split
  · refine ⟨.dispatching, .inl rfl, ?_⟩
    show ((x.calls ++ [_]).map _) = _
    rw [List.map_append, hothers]
    simp
  · refine ⟨.answered .sourceStopped, .inr ⟨_, rfl⟩, ?_⟩
    show ((x.calls ++ [_]).map _) = _
    rw [List.map_append, hothers]
    simp

theorem ids_receive (h : x.call? id = none) : (x.receive id).ids = x.ids ++ [id] := by
  obtain ⟨phase, -, hcalls⟩ := calls_receive h
  unfold ids
  rw [hcalls, List.map_append]
  rfl

theorem call?_receive (h : x.call? id = none) : ∃ c, (x.receive id).call? id = some c := by
  obtain ⟨phase, -, hcalls⟩ := calls_receive h
  refine ⟨⟨id, phase, none⟩, ?_⟩
  unfold call? at h ⊢
  rw [hcalls, List.find?_append, h]
  simp

theorem call?_receive_of_some {id' : String} {c : Call} (h : x.call? id = none)
    (hc : x.call? id' = some c) : (x.receive id).call? id' = some c := by
  obtain ⟨phase, -, hcalls⟩ := calls_receive h
  unfold call? at hc ⊢
  rw [hcalls, List.find?_append, hc]
  rfl

end Exchange

end Correlator
