import Correlator.Proofs.Exchange.Waits

/-!
# Exchanges that are tended

Whoever waits for a reply at an exchange is parked there, and at an exchange that is closed nobody
is parked. So nobody waits at a closed exchange.

* `Call.Unmet`: a call that still waits for a reply, or will.
* `Exchange.Tended`: what holds of an exchange at which no call is about to make its check.
* `Exchange.Expects`: whoever is parked has no reply yet and has not left.
* `Exchange.Stays`: what jobs, replies and timers do to an exchange: they keep it tended and open
  or closed as it was, and park nobody (`Exchange.stays_joined`, `Exchange.stays_reply`,
  `Exchange.stays_expire`).
* `Exchange.Tended.disconnect`, `Exchange.Tended.receive`: the end of an exchange, and a call that
  comes. The same for `Exchange.Expects`, and `Exchange.Expects.hangUp` for a client that hangs up.
-/

namespace Correlator

/-- A call that still waits for a reply, or will once its job has ended. -/
def Call.Unmet (c : Call) : Prop :=
  c.phase = .dispatching ∧ c.early? = none ∨ ∃ deadline, c.phase = .waiting deadline

namespace Call

/-- A call that takes a reply does not wait for one any more, unless it has not made its check. -/
theorem not_unmet_take (c : Call) (r : Reply) : ¬ (c.take r).Unmet := by
  obtain ⟨id, phase, early?⟩ := c
  cases phase <;> simp [take, Unmet]

/-- A call that has heard how its job ended waits no more than it did. -/
theorem Unmet.of_await {c : Call} {deadline : Nat} (hc : c.phase = .dispatching)
    (h : (c.await deadline).Unmet) : c.Unmet := by
  obtain ⟨id, phase, early?⟩ := c
  cases early? with
  | none => exact .inl ⟨hc, rfl⟩
  | some r => simp [await, Unmet] at h

theorem not_unmet_answered (c : Call) (r : Reply) :
    ¬ Unmet { c with phase := .answered r } := by
  simp [Unmet]

/-- A call that has no reply yet, was not answered and has not left. -/
structure Bare (c : Call) : Prop where
  no_reply : c.early? = none
  unanswered : ∀ r, c.phase ≠ .answered r
  stays : ∀ holds, c.phase ≠ .leaving holds

end Call

namespace Exchange

variable {x x' x'' : Exchange} {id : String}

/-- Whoever waits for a reply is parked. -/
def Attends (x : Exchange) : Prop :=
  ∀ id c, x.call? id = some c → c.Unmet → x.isParked id = true

/-- Whoever waits is parked, and nobody is parked at an exchange that is closed. -/
structure Tended (x : Exchange) : Prop where
  attends : x.Attends
  closed : x.isOpen = false → x.parked = []

theorem tended_new (attributes : List String) (k : Consumer) : (new attributes k).Tended :=
  ⟨nofun, nofun⟩

/-! ## Calls that are concluded or take a reply -/

/-- A call whose id is taken out of the table waits for nothing, if it is dealt with. -/
theorem Attends.withdraw_alter (h : x.Attends) {f : Call → Call} (hid : ∀ c, (f c).id = c.id)
    (hf : ∀ c, ¬ (f c).Unmet) : ((x.withdraw id).alter id f).Attends := by
  intro id' c' hc' hunmet
  rw [call?_alter _ _ _ hid] at hc'
  show (x.withdraw id).isParked id' = true
  rw [isParked_withdraw]
  by_cases he : id' = id
  · rw [if_pos he] at hc'
    obtain ⟨c, -, rfl⟩ := Option.map_eq_some_iff.1 hc'
    exact absurd hunmet (hf c)
  · rw [if_neg he] at hc' ⊢
    exact h id' c' hc' hunmet

theorem Attends.conclude (h : x.Attends) (id : String) (r : Reply) : (x.conclude id r).Attends :=
  h.withdraw_alter (fun _ => rfl) fun c => c.not_unmet_answered r

theorem Attends.reply (h : x.Attends) (id : String) (r : Reply) : (x.reply id r).1.Attends := by
  unfold Exchange.reply
  split
  · exact h.withdraw_alter (fun c => c.take_id r) fun c => c.not_unmet_take r
  · exact h

theorem Attends.joined (h : x.Attends) (id : String) (e : DispatchEnd) (deadline : Nat) :
    (x.joined id e deadline).Attends := by
  unfold Exchange.joined
  split
  · rename_i hdispatching
    split
    · exact h.conclude id _
    · intro id' c' hc' hunmet
      rw [call?_alter _ _ _ fun c => c.await_id deadline] at hc'
      by_cases he : id' = id
      · subst he
        rw [if_pos rfl] at hc'
        obtain ⟨c, hc, rfl⟩ := Option.map_eq_some_iff.1 hc'
        rw [hc] at hdispatching
        exact h id' c hc (hunmet.of_await (of_decide_eq_true hdispatching))
      · rw [if_neg he] at hc'
        exact h id' c' hc' hunmet
  · exact h

/-! ## Whoever is parked -/

/-- Nobody is parked twice, and whoever is parked has no reply yet and has not left. -/
structure Expects (x : Exchange) : Prop where
  nodup : x.parked.Nodup
  bare : ∀ id ∈ x.parked, ∃ c, x.call? id = some c ∧ c.Bare

theorem expects_new (attributes : List String) (k : Consumer) : (new attributes k).Expects :=
  ⟨List.nodup_nil, nofun⟩

/-- Whatever becomes of a call whose id is taken out of the table, the others stay as they are. -/
theorem Expects.withdraw_alter (h : x.Expects) {f : Call → Call} (hid : ∀ c, (f c).id = c.id) :
    ((x.withdraw id).alter id f).Expects where
  nodup := h.nodup.filter _
  bare id' hmem := by
    obtain ⟨hmem, hne⟩ := List.mem_filter.1 hmem
    obtain ⟨c, hc, hbare⟩ := h.bare id' hmem
    refine ⟨c, ?_, hbare⟩
    rw [call?_alter _ _ _ hid, if_neg (of_decide_eq_true hne)]
    exact hc

/-- A call that gets no reply may be changed as long as it is neither answered nor leaves. -/
theorem Expects.alter (h : x.Expects) {f : Call → Call} (hid : ∀ c, (f c).id = c.id)
    (hf : ∀ c, c.early? = none → (f c).Bare) : (x.alter id f).Expects where
  nodup := h.nodup
  bare id' hmem := by
    obtain ⟨c, hc, hbare⟩ := h.bare id' hmem
    rw [call?_alter _ _ _ hid, hc]
    split
    · exact ⟨f c, rfl, hf c hbare.no_reply⟩
    · exact ⟨c, rfl, hbare⟩

theorem Expects.conclude (h : x.Expects) (id : String) (r : Reply) : (x.conclude id r).Expects :=
  h.withdraw_alter fun _ => rfl

theorem Expects.reply (h : x.Expects) (id : String) (r : Reply) : (x.reply id r).1.Expects := by
  unfold Exchange.reply
  split
  · exact h.withdraw_alter fun c => c.take_id r
  · exact h

theorem Expects.joined (h : x.Expects) (id : String) (e : DispatchEnd) (deadline : Nat) :
    (x.joined id e deadline).Expects := by
  unfold Exchange.joined
  split
  · cases e.rejection? with
    | some reply => exact h.conclude id reply
    | none =>
      refine h.alter (fun c => c.await_id deadline) fun c hearly => ?_
      simp only [Call.await, hearly]
      refine ⟨rfl, fun a ha => ?_, fun holds hleaving => ?_⟩
      · cases ha
      · cases hleaving
  · exact h

/-- A client that hangs up leaves its id in the table. -/
theorem Expects.hangUp (h : x.Expects) (id : String) : (x.hangUp id).Expects :=
  h.alter (fun _ => rfl) fun _ hearly => ⟨hearly, nofun, nofun⟩

/-! ## What jobs, replies and timers do -/

/-- The exchange is as open and as tended as it was, and nobody was parked. -/
structure Stays (x x' : Exchange) : Prop where
  front : x'.front = x.front
  parked : x'.parked ⊆ x.parked
  attends : x.Attends → x'.Attends
  expects : x.Expects → x'.Expects

namespace Stays

theorem refl (x : Exchange) : x.Stays x := ⟨rfl, List.Subset.refl _, fun h => h, fun h => h⟩

theorem trans (h : x.Stays x') (h' : x'.Stays x'') : x.Stays x'' :=
  ⟨h'.front.trans h.front, List.Subset.trans h'.parked h.parked, h'.attends ∘ h.attends,
    h'.expects ∘ h.expects⟩

theorem isOpen_eq (h : x.Stays x') : x'.isOpen = x.isOpen :=
  congrArg (fun front => front.2.2) h.front

theorem tended (h : x.Stays x') (hx : x.Tended) : x'.Tended := by
  refine ⟨h.attends hx.attends, fun hclosed => ?_⟩
  have hnone := hx.closed (h.isOpen_eq ▸ hclosed)
  exact List.subset_nil.1 (hnone ▸ h.parked)

end Stays

theorem stays_conclude (x : Exchange) (id : String) (r : Reply) : x.Stays (x.conclude id r) :=
  ⟨rfl, List.filter_subset_self .., fun h => h.conclude id r, fun h => h.conclude id r⟩

theorem stays_joined (x : Exchange) (id : String) (e : DispatchEnd) (deadline : Nat) :
    x.Stays (x.joined id e deadline) := by
  refine ⟨x.front_joined id e deadline, ?_, fun h => h.joined id e deadline,
    fun h => h.joined id e deadline⟩
  unfold joined
  split
  · split
    · exact (x.stays_conclude id _).parked
    · exact List.Subset.refl _
  · exact List.Subset.refl _

theorem stays_reply (x : Exchange) (id : String) (r : Reply) : x.Stays (x.reply id r).1 := by
  refine ⟨x.front_reply id r, ?_, fun h => h.reply id r, fun h => h.reply id r⟩
  unfold reply
  split
  · exact List.filter_subset_self ..
  · exact List.Subset.refl _

theorem stays_expire (x : Exchange) (now : Nat) : x.Stays (x.expire now) := by
  have hfold : ∀ (cs : List Call) (y : Exchange),
      y.Stays (cs.foldl (fun y c => y.giveUp c.id) y) := by
    intro cs
    induction cs with
    | nil => exact .refl
    | cons c cs ih => exact fun y => (y.stays_conclude c.id .timedOut).trans (ih _)
  exact hfold _ x

/-! ## The end of an exchange -/

/-- Nobody is parked who was listed and drained. -/
theorem parked_foldl_drain (ids : List String) (x : Exchange) :
    ∀ id ∈ (ids.foldl drain x).parked, id ∈ x.parked ∧ id ∉ ids := by
  induction ids generalizing x with
  | nil => exact fun id hid => ⟨hid, List.not_mem_nil⟩
  | cons id' ids ih =>
    intro id hid
    obtain ⟨hmem, hnot⟩ := ih (x.drain id') id hid
    have hparked : (x.drain id').isParked id = true := (isParked_iff _ _).2 hmem
    unfold drain at hparked
    rw [isParked_reply] at hparked
    split at hparked
    · cases hparked
    · rename_i hne
      exact ⟨(isParked_iff _ _).1 hparked, by simp [hne, hnot]⟩

/-- Nobody is parked at an exchange that was disconnected. -/
theorem parked_disconnect (x : Exchange) : x.disconnect.parked = [] := by
  rw [List.eq_nil_iff_forall_not_mem]
  intro id hid
  obtain ⟨hmem, hnot⟩ := parked_foldl_drain x.close.parked x.close id hid
  exact hnot hmem

theorem Tended.disconnect (h : x.Tended) : x.disconnect.Tended := by
  have hfold : ∀ (ids : List String) (y : Exchange), y.Attends → (ids.foldl drain y).Attends := by
    intro ids
    induction ids with
    | nil => exact fun _ h => h
    | cons id ids ih => exact fun y hy => ih _ (hy.reply id .sourceStopped)
  exact ⟨hfold _ x.close h.attends, fun _ => x.parked_disconnect⟩

theorem Expects.disconnect (h : x.Expects) : x.disconnect.Expects := by
  have hfold : ∀ (ids : List String) (y : Exchange), y.Expects → (ids.foldl drain y).Expects := by
    intro ids
    induction ids with
    | nil => exact fun _ h => h
    | cons id ids ih => exact fun y hy => ih _ (hy.reply id .sourceStopped)
  exact hfold _ x.close ⟨h.nodup, h.bare⟩

/-! ## Calls that come -/

theorem parked_receive_of_closed (hclosed : x.isOpen = false) (id : String) :
    (x.receive id).parked = (x.parked ++ [id]).filter (· ≠ id) := by
  unfold Exchange.receive checkOpen
  rw [if_neg (show ¬(x.park id).isOpen = true by simp [park, hclosed])]
  rfl

/-- A call that comes to an open exchange is parked; at a closed one it is turned down. -/
theorem Tended.receive (h : x.Tended) (hnew : x.call? id = none) : (x.receive id).Tended := by
  have hpark : (x.park id).Attends := by
    intro id' c hc hunmet
    rw [call?_park _ hnew] at hc
    rw [isParked_park]
    by_cases he : id' = id
    · rw [if_pos he]
    · rw [if_neg he] at hc ⊢
      exact h.attends id' c hc hunmet
  have hfront : (x.receive id).isOpen = x.isOpen :=
    congrArg (fun front => front.2.2) (front_checkOpen (x.park id) id)
  refine ⟨?_, fun hclosed => ?_⟩
  · unfold Exchange.receive checkOpen
    split
    · intro id' c' hc' hunmet
      show (x.park id).isParked id' = true
      by_cases he : id' = id
      · rw [isParked_park, if_pos he]
      · rw [call?_alter, if_neg he] at hc'
        · exact hpark id' c' hc' hunmet
        · exact fun _ => rfl
    · exact hpark.conclude id _
  · rw [hfront] at hclosed
    rw [parked_receive_of_closed hclosed, h.closed hclosed]
    simp

theorem Expects.receive (h : x.Expects) (hnew : x.call? id = none) : (x.receive id).Expects := by
  have hpark : (x.park id).Expects := by
    refine ⟨?_, fun id' hmem => ?_⟩
    · have hfresh : id ∉ x.parked := fun hmem => by
        obtain ⟨c, hc, -⟩ := h.bare id hmem
        cases hnew.symm.trans hc
      show (x.parked ++ [id]).Nodup
      rw [← List.concat_eq_append]
      exact h.nodup.concat hfresh
    · rw [call?_park _ hnew]
      split
      · exact ⟨_, rfl, rfl, nofun, nofun⟩
      · rename_i hne
        have hold : id' ∈ x.parked := (List.mem_append.1 hmem).resolve_right fun hmem =>
          hne (List.mem_singleton.1 hmem)
        exact h.bare id' hold
  unfold Exchange.receive checkOpen
  split
  · exact hpark.alter (fun _ => rfl) fun _ hearly => ⟨hearly, nofun, nofun⟩
  · exact hpark.conclude id _

/-- A call that comes and whose job will never run is parked no longer. -/
theorem parked_of_turnedAway (hopen : x.isOpen = true) (hnone : x.parked = [])
    (hnew : x.call? id = none) (deadline : Nat) :
    ((x.receive id).joined id .turnedAway deadline).parked = [] := by
  have hcall : (x.receive id).call? id = some ⟨id, .dispatching, none⟩ := by
    unfold Exchange.receive checkOpen
    rw [if_pos (show (x.park id).isOpen = true from hopen), call?_alter, if_pos rfl,
      call?_park _ hnew, if_pos rfl]
    · rfl
    · exact fun _ => rfl
  have hparked : (x.receive id).parked = x.parked ++ [id] := by
    unfold Exchange.receive checkOpen
    rw [if_pos (show (x.park id).isOpen = true from hopen)]
    rfl
  unfold joined
  rw [hcall, if_pos (by rfl)]
  show (x.receive id).parked.filter _ = []
  rw [hparked, hnone]
  simp

end Exchange

end Correlator
