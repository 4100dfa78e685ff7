import Correlator.Proofs.Bridge.Waits
import Correlator.Proofs.Switchboard.Teardown

/-!
# Requests that wait for their replies

How long the requests wait that come to a bridge.

* `MessageId.ofNumber_injective`: no two requests have one id.
* `Call.Seated`: where a call stands when nothing goes on.
* `Bridge.Numbered`: the calls that there are are those of requests that came in.
* `Bridge.call?`: the call of a request; `Bridge.Steady`: what holds of all calls, and that each
  request has one; `Bridge.Timely`: those that wait have time left.
* `Call.After`: what becomes of a call in the long run.
* **`Bridge.answered_in_time`**: once the job of a request has ended, the request is answered within
  the time that requests are given.
* `Bridge.unanswered_held_up`: before that there is no limit.
-/

namespace Correlator

/-! ## Ids -/

namespace MessageId

theorem hexValue?_digitChar : ∀ n < 16, Octets.hexValue? (Nat.digitChar n) = some n := by decide

/-- The number that hexadecimal digits stand for. -/
def read (digits : List Char) : Nat :=
  digits.foldl (fun n c => 16 * n + (Octets.hexValue? c).getD 0) 0

theorem read_toDigits (n : Nat) : read (Nat.toDigits 16 n) = n := by
  induction n using Nat.strongRecOn with
  | ind n ih =>
    rw [Nat.toDigits_eq_if (by decide)]
    split
    · rename_i hlt
      simp [read, hexValue?_digitChar n hlt]
    · have hlt : n % 16 < 16 := Nat.mod_lt n (by decide)
      have hquotient := ih (n / 16) (by omega)
      unfold read at hquotient ⊢
      rw [List.foldl_append, hquotient]
      simp only [List.foldl_cons, List.foldl_nil, hexValue?_digitChar _ hlt, Option.getD_some]
      omega

theorem read_replicate_append (k : Nat) (digits : List Char) :
    read (List.replicate k '0' ++ digits) = read digits := by
  have hzeros : ∀ k, (List.replicate k '0').foldl
      (fun n c => 16 * n + (Octets.hexValue? c).getD 0) 0 = 0 := by
    intro k
    induction k with
    | zero => rfl
    | succ k ih => exact ih
  unfold read
  rw [List.foldl_append, hzeros]

/-- No two numbers have one id. -/
theorem ofNumber_injective : Function.Injective ofNumber := by
  intro n m h
  unfold ofNumber at h
  have hdigits := String.ofList_injective ((String.append_right_inj _).1 h)
  have hread := congrArg read hdigits
  rwa [read_replicate_append, read_replicate_append, read_toDigits, read_toDigits] at hread

end MessageId

/-! ## Calls -/

/-- A deadline is not further away than the time that requests are given, unless the clock is about
to end. -/
theorem Clock.afterOrFar_le {t now timeout : Nat} (ht : t ≤ now) (hclock : now + far ≤ last) :
    afterOrFar t timeout ≤ now + timeout := by
  unfold afterOrFar after?
  split
  · show t + timeout ≤ now + timeout
    omega
  · show t + far ≤ now + timeout
    omega

namespace Call

variable {now timeout : Nat} {c c' c'' : Call}

/-- Where a call stands when nothing goes on: it was dispatched, was answered, or waits since its
job has ended. -/
inductive Seated (now timeout : Nat) (c : Call) : Prop
  | dispatching : c.phase = .dispatching → Seated now timeout c
  | answered (r : Reply) : c.phase = .answered r → Seated now timeout c
  | waiting (t : Nat) : t ≤ now → c.phase = .waiting (Clock.afterOrFar t timeout) →
      Seated now timeout c

theorem Seated.later {now' : Nat} (h : c.Seated now timeout) (hnow : now ≤ now') :
    c.Seated now' timeout := by
  cases h with
  | dispatching h => exact .dispatching h
  | answered r h => exact .answered r h
  | waiting t ht h => exact .waiting t (Nat.le_trans ht hnow) h

theorem Seated.goes (h : c.Seated now timeout)
    (hgoes : c.Goes (some (Clock.afterOrFar now timeout)) c') : c'.Seated now timeout := by
  rcases hgoes.phase with hsame | ⟨r, hanswered⟩ | ⟨deadline, hd, -, hwaits⟩
  · cases h with
    | dispatching h => exact .dispatching (hsame.trans h)
    | answered r h => exact .answered r (hsame.trans h)
    | waiting t ht h => exact .waiting t ht (hsame.trans h)
  · exact .answered r hanswered
  · cases hd
    exact .waiting now (Nat.le_refl now) hwaits

/-- What becomes of a call in the long run: its deadline stays what it is until it is answered, and
once it is answered it stays so. -/
structure After (c c' : Call) : Prop where
  waiting : ∀ deadline, c.phase = .waiting deadline →
    c'.phase = .waiting deadline ∨ ∃ r, c'.phase = .answered r
  answered : (∃ r, c.phase = .answered r) → ∃ r, c'.phase = .answered r

theorem After.refl (c : Call) : c.After c := ⟨fun _ h => .inl h, fun h => h⟩

theorem After.trans (h : c.After c') (h' : c'.After c'') : c.After c'' := by
  refine ⟨fun deadline hwaits => ?_, h'.answered ∘ h.answered⟩
  rcases h.waiting deadline hwaits with hwaits' | hanswered
  · exact h'.waiting deadline hwaits'
  · exact .inr (h'.answered hanswered)

theorem Goes.after {deadline? : Option Nat} (h : c.Goes deadline? c') : c.After c' := by
  refine ⟨fun deadline hwaits => ?_, fun ⟨r, hanswered⟩ => ?_⟩
  · rcases h.phase with hsame | hanswered | ⟨-, -, hwas, -⟩
    · exact .inl (hsame.trans hwaits)
    · exact .inr hanswered
    · cases hwas.symm.trans hwaits
  · rcases h.phase with hsame | hanswered' | ⟨-, -, hwas, -⟩
    · exact ⟨r, hsame.trans hanswered⟩
    · exact hanswered'
    · cases hwas.symm.trans hanswered

end Call

namespace Bridge

variable {b b' b'' : Bridge} {n : Nat} {c : Call}

/-! ## The calls of requests -/

/-- The call of a request. -/
def call? (b : Bridge) (n : Nat) : Option Call :=
  (b.seats[n]?).bind fun seat => (b.switchboard.exchange? seat.1).bind fun x => x.call? seat.2

theorem reply?_eq (b : Bridge) (n : Nat) : b.reply? n = (b.call? n).bind Call.answer? := by
  unfold reply? call? seats
  rw [List.getElem?_map]
  cases b.inbound[n]? with
  | none => rfl
  | some i =>
    simp only [Option.bind_eq_bind, Option.bind_some, Option.map_some, Option.bind_assoc]

/-! ## The ids of requests -/

/-- An exchange is as it was when a request comes at some exchange, or has got the request. -/
theorem exchange?_welcome {s : Switchboard} {m : Nat} {x : Exchange} (k : Nat) (id : String)
    (hx : s.exchange? m = some x) :
    ∃ x', (s.alterExchange k (·.receive id)).exchange? m = some x' ∧
      (x' = x ∨ x' = x.receive id) := by
  refine ⟨if k = m then x.receive id else x, ?_, ?_⟩
  · show (s.exchangeList.modify k _)[m]? = _
    rw [List.getElem?_modify, show s.exchangeList[m]? = some x from hx]
    rfl
  · split
    · exact .inr rfl
    · exact .inl rfl

theorem mem_welcome {s : Switchboard} {k : Nat} {id : String} {x' : Exchange}
    (hx' : x' ∈ (s.alterExchange k (·.receive id)).exchangeList) :
    ∃ x ∈ s.exchangeList, x' = x ∨ x' = x.receive id := by
  obtain ⟨m, hm⟩ := List.getElem?_of_mem hx'
  obtain ⟨x, hx, -⟩ := Option.map_eq_some_iff.1 ((List.getElem?_modify _ _ _ _).symm.trans hm)
  obtain ⟨x'', hx'', hor⟩ := exchange?_welcome k id (s := s) hx
  cases hx''.symm.trans hm
  exact ⟨x, List.mem_of_getElem? hx, hor⟩

/-- The ids of all calls are those of requests that came in. -/
def Numbered (b : Bridge) : Prop :=
  ∀ x ∈ b.switchboard.exchangeList, ∀ id ∈ x.ids, ∃ n < b.seats.length, id = MessageId.ofNumber n

namespace Numbered

/-- The id of a request that comes is new at every exchange. -/
theorem call?_new (h : b.Numbered) {x : Exchange} (hx : x ∈ b.switchboard.exchangeList) :
    x.call? (MessageId.ofNumber b.seats.length) = none := by
  cases hc : x.call? (MessageId.ofNumber b.seats.length) with
  | none => rfl
  | some c =>
    have hid : c.id = MessageId.ofNumber b.seats.length := by simpa using List.find?_some hc
    obtain ⟨m, hm, he⟩ := h x hx c.id (List.mem_map_of_mem (List.mem_of_find?_eq_some hc))
    have hsame := MessageId.ofNumber_injective (hid.symm.trans he)
    omega

theorem goes {deadline? : Option Nat} (h : b.Numbered) (hgoes : b.Goes deadline? b') :
    b'.Numbered := by
  intro x' hx' id hid
  rw [hgoes.seats]
  rcases hgoes.switchboard.new x' hx' with ⟨x, hx, hgoes⟩ | hnone
  · exact h x hx id (hgoes.ids ▸ hid)
  · simp [Exchange.ids, hnone] at hid

theorem opens (h : b.Numbered) (hopens : b.Opens b') : b'.Numbered := by
  cases hopens with
  | same | later => exact h
  | @welcome i x hx hid =>
    rw [← b.length_seats] at hid
    intro x' hx' id hid'
    rw [seats_welcome, List.length_append, List.length_singleton]
    have hold : ∀ x ∈ b.switchboard.exchangeList, id ∈ x.ids →
        ∃ n < b.seats.length + 1, id = MessageId.ofNumber n := fun x hx hmem => by
      obtain ⟨n, hn, he⟩ := h x hx id hmem
      exact ⟨n, Nat.lt_succ_of_lt hn, he⟩
    obtain ⟨x, hx, rfl | rfl⟩ := mem_welcome hx'
    · exact hold _ hx hid'
    · have hnew : x.call? i.id = none := hid ▸ h.call?_new hx
      rw [Exchange.ids_receive hnew] at hid'
      rcases List.mem_append.1 hid' with hmem | hmem
      · exact hold x hx hmem
      · exact ⟨b.seats.length, Nat.lt_succ_self _, (List.mem_singleton.1 hmem).trans hid⟩

/-- Every move leaves the ids as they should be. -/
theorem comes (h : b.Numbered) (hcomes : b.Comes b') : b'.Numbered := by
  cases hcomes with
  | runs hopens hruns => exact ((h.opens hopens).goes hruns).goes (rests_expire _)
  | rests hopens _ hrests => exact (h.opens hopens).goes hrests

end Numbered

/-! ## When nothing goes on -/

/-- What holds of all calls when nothing goes on. -/
structure Steady (b : Bridge) : Prop where
  nodup : ∀ x ∈ b.switchboard.exchangeList, x.ids.Nodup
  numbered : ∀ x ∈ b.switchboard.exchangeList, ∀ id ∈ x.ids,
    ∃ n < b.seats.length, id = MessageId.ofNumber n
  seated : ∀ x ∈ b.switchboard.exchangeList, ∀ c ∈ x.calls, c.Seated b.now b.timeout
  called : ∀ n < b.seats.length, ∃ c, b.call? n = some c

/-- Whoever waits has time left. -/
def Timely (b : Bridge) : Prop :=
  ∀ x ∈ b.switchboard.exchangeList, ∀ c ∈ x.calls, ∀ deadline, c.phase = .waiting deadline →
    b.now < deadline

theorem timeout_new {config : Config} {files : FileTree} (h : new? config files = some b) :
    b.timeout = config.listener.responseTimeout := by
  obtain ⟨pool, -, rfl⟩ := Option.map_eq_some_iff.1 h
  rfl

theorem steady_new {config : Config} {files : FileTree} (h : new? config files = some b) :
    b.Steady ∧ b.Timely := by
  obtain ⟨pool, -, rfl⟩ := Option.map_eq_some_iff.1 h
  refine ⟨⟨?_, ?_, ?_, ?_⟩, ?_⟩
  all_goals simp [Switchboard.empty, seats, Timely]

namespace Steady

theorem mem_exchangeList {k : Nat} {x : Exchange} (hx : b.switchboard.exchange? k = some x) :
    x ∈ b.switchboard.exchangeList := List.mem_of_getElem? hx

/-- While jobs go on the call of a request stays the call of this request. -/
theorem call?_goes {deadline? : Option Nat} (h : b.Steady) (hgoes : b.Goes deadline? b')
    (hc : b.call? n = some c) : ∃ c', b'.call? n = some c' ∧ c.Goes deadline? c' := by
  obtain ⟨⟨k, id⟩, hseat, hc⟩ := Option.bind_eq_some_iff.1 hc
  obtain ⟨x, hx, hc⟩ := Option.bind_eq_some_iff.1 hc
  obtain ⟨x', hx', hgoes'⟩ := hgoes.switchboard.old k x hx
  obtain ⟨c', hc', hcalls⟩ := hgoes'.call? (h.nodup x (mem_exchangeList hx)) hc
  refine ⟨c', ?_, hcalls⟩
  unfold call?
  rw [hgoes.seats, hseat]
  simp [hx', hc']

theorem runs (h : b.Steady) (hruns : b.Runs b') : b'.Steady := by
  refine ⟨fun x' hx' => ?_, fun x' hx' id hid => ?_, fun x' hx' c' hc' => ?_, fun n hn => ?_⟩
  · rcases hruns.switchboard.new x' hx' with ⟨x, hx, hgoes⟩ | hnone
    · exact hgoes.ids ▸ h.nodup x hx
    · simp [Exchange.ids, hnone]
  · exact Numbered.goes h.numbered hruns x' hx' id hid
  · rw [hruns.now, hruns.timeout]
    rcases hruns.switchboard.new x' hx' with ⟨x, hx, hgoes⟩ | hnone
    · obtain ⟨f, hf, hcalls⟩ := hgoes.calls (h.nodup x hx)
      rw [hf] at hc'
      obtain ⟨c, hc, rfl⟩ := List.mem_map.1 hc'
      exact (h.seated x hx c hc).goes (hcalls c hc)
    · rw [hnone] at hc'
      cases hc'
  · rw [hruns.seats] at hn
    obtain ⟨c, hc⟩ := h.called n hn
    obtain ⟨c', hc', -⟩ := h.call?_goes hruns hc
    exact ⟨c', hc'⟩

/-! ## Requests that come -/

/-- The id of a request that comes is new at every exchange. -/
theorem call?_new (h : b.Steady) {x : Exchange} (hx : x ∈ b.switchboard.exchangeList) :
    x.call? (MessageId.ofNumber b.seats.length) = none := Numbered.call?_new h.numbered hx

/-- What a move begins with leaves the calls of requests where they are. -/
theorem call?_opens (h : b.Steady) (hopens : b.Opens b') (hc : b.call? n = some c) :
    b'.call? n = some c := by
  cases hopens with
  | same | later => exact hc
  | welcome i hx hid =>
    rw [← b.inbound.length_map] at hid
    obtain ⟨⟨k, id⟩, hseat, hc⟩ := Option.bind_eq_some_iff.1 hc
    obtain ⟨x, hx, hc⟩ := Option.bind_eq_some_iff.1 hc
    obtain ⟨x', hx', hor⟩ := exchange?_welcome i.exchange i.id hx
    have hc' : x'.call? id = some c := by
      rcases hor with rfl | rfl
      · exact hc
      · refine Exchange.call?_receive_of_some ?_ hc
        rw [hid]
        exact h.call?_new (mem_exchangeList hx)
    unfold call?
    rw [seats_welcome, switchboard_welcome,
      List.getElem?_append_left (List.getElem?_eq_some_iff.1 hseat).1, hseat]
    simp [hx', hc']

theorem opens (h : b.Steady) (hopens : b.Opens b') : b'.Steady := by
  have hcalled : ∀ n < b.seats.length, ∃ c, b'.call? n = some c := fun n hn => by
    obtain ⟨c, hc⟩ := h.called n hn
    exact ⟨c, h.call?_opens hopens hc⟩
  cases hopens with
  | same => exact h
  | later seconds =>
    refine ⟨h.nodup, h.numbered, fun x hx c hc => ?_, hcalled⟩
    exact (h.seated x hx c hc).later (Nat.le_add_right _ _)
  | @welcome i x hx hid =>
    have hnumbered : (b.welcome i).Numbered := Numbered.opens h.numbered (.welcome i hx hid)
    rw [← b.length_seats] at hid
    have hnew : ∀ x ∈ b.switchboard.exchangeList, x.call? i.id = none := fun x hx =>
      hid ▸ h.call?_new hx
    refine ⟨fun x' hx' => ?_, fun x' hx' id hid' => ?_, fun x' hx' c hc => ?_, fun n hn => ?_⟩
    · obtain ⟨x, hx, rfl | rfl⟩ := mem_welcome hx'
      · exact h.nodup _ hx
      · rw [Exchange.ids_receive (hnew x hx), List.nodup_append_comm]
        exact List.nodup_cons.2 ⟨Exchange.not_mem_ids (hnew x hx), h.nodup x hx⟩
    · exact hnumbered x' hx' id hid'
    · obtain ⟨x, hx, rfl | rfl⟩ := mem_welcome hx'
      · exact h.seated _ hx c hc
      · obtain ⟨phase, hphase, hcalls⟩ := Exchange.calls_receive (hnew x hx)
        rw [hcalls] at hc
        rcases List.mem_append.1 hc with hc | hc
        · exact h.seated x hx c hc
        · cases List.mem_singleton.1 hc
          rcases hphase with rfl | ⟨r, rfl⟩
          · exact .dispatching rfl
          · exact .answered r rfl
    · rw [seats_welcome, List.length_append, List.length_singleton] at hn
      rcases Nat.lt_succ_iff_lt_or_eq.1 hn with hlt | rfl
      · exact hcalled n hlt
      · obtain ⟨c, hc⟩ := Exchange.call?_receive (hnew x (mem_exchangeList hx))
        refine ⟨c, ?_⟩
        have hx' : (b.switchboard.exchangeList.modify i.exchange (·.receive i.id))[i.exchange]? =
            some (x.receive i.id) := by
          rw [List.getElem?_modify, show b.switchboard.exchangeList[i.exchange]? = some x from hx]
          simp
        unfold call?
        rw [seats_welcome, switchboard_welcome, List.getElem?_concat_length]
        simp [Switchboard.exchange?, Switchboard.alterExchange, hx', hc]

/-- Every move leaves a bridge as it should be. -/
theorem comes (h : b.Steady) (hcomes : b.Comes b') : b'.Steady := by
  cases hcomes with
  | runs hopens hruns => exact ((h.opens hopens).runs hruns).runs (rests_expire _).runs
  | rests hopens _ hrests => exact (h.opens hopens).runs hrests.runs

/-- The call of a request goes on, whatever happens. -/
theorem after_comes (h : b.Steady) (hcomes : b.Comes b') (hc : b.call? n = some c) :
    ∃ c', b'.call? n = some c' ∧ c.After c' := by
  cases hcomes with
  | runs hopens hruns =>
    have hopened := h.opens hopens
    obtain ⟨c₂, hc₂, hgoes⟩ := hopened.call?_goes hruns (h.call?_opens hopens hc)
    obtain ⟨c₃, hc₃, hgoes'⟩ := (hopened.runs hruns).call?_goes (rests_expire _) hc₂
    exact ⟨c₃, hc₃, hgoes.after.trans hgoes'.after⟩
  | rests hopens _ hrests =>
    obtain ⟨c₂, hc₂, hgoes⟩ := (h.opens hopens).call?_goes hrests (h.call?_opens hopens hc)
    exact ⟨c₂, hc₂, hgoes.after⟩

end Steady

/-! ## Time -/

/-- Whoever still waits after time has run out has time left. -/
theorem timely_expire (b : Bridge) : b.expire.Timely := by
  intro x' hx' c hc deadline hwaits
  obtain ⟨x, -, rfl⟩ := List.mem_map.1 hx'
  exact Exchange.now_lt_of_expire hc hwaits

theorem Timely.opens (ht : b.Timely) (h : b.Steady) (hopens : b.Opens b')
    (hnow : b'.now = b.now) : b'.Timely := by
  cases hopens with
  | same => exact ht
  | later seconds =>
    intro x hx c hc deadline hwaits
    rw [hnow]
    exact ht x hx c hc deadline hwaits
  | @welcome i x hx hid =>
    intro x' hx' c hc deadline hwaits
    rw [← b.length_seats] at hid
    obtain ⟨x, hx, rfl | rfl⟩ := mem_welcome hx'
    · exact ht _ hx c hc deadline hwaits
    · obtain ⟨phase, hphase, hcalls⟩ := Exchange.calls_receive (hid ▸ h.call?_new hx)
      rw [hcalls] at hc
      rcases List.mem_append.1 hc with hc | hc
      · exact ht x hx c hc deadline hwaits
      · cases List.mem_singleton.1 hc
        rcases hphase with rfl | ⟨r, rfl⟩
        · cases hwaits
        · cases hwaits

theorem Timely.rests (ht : b.Timely) (h : b.Steady) (hrests : b.Rests b') : b'.Timely := by
  intro x' hx' c' hc' deadline hwaits
  rw [hrests.now]
  rcases hrests.switchboard.new x' hx' with ⟨x, hx, hgoes⟩ | hnone
  · obtain ⟨f, hf, hcalls⟩ := hgoes.calls (h.nodup x hx)
    rw [hf] at hc'
    obtain ⟨c, hc, rfl⟩ := List.mem_map.1 hc'
    rcases (hcalls c hc).phase with hsame | ⟨r, hanswered⟩ | ⟨_, hd, -, -⟩
    · exact ht x hx c hc deadline (hsame ▸ hwaits)
    · cases hanswered.symm.trans hwaits
    · cases hd
  · rw [hnone] at hc'
    cases hc'

theorem Timely.comes (ht : b.Timely) (h : b.Steady) (hcomes : b.Comes b') : b'.Timely := by
  cases hcomes with
  | runs => exact timely_expire _
  | rests hopens hnow hrests => exact (ht.opens h hopens hnow).rests (h.opens hopens) hrests

/-! ## The course of a bridge -/

theorem timeout_comes (hcomes : b.Comes b') : b'.timeout = b.timeout := by
  have hopened : ∀ {b₁}, b.Opens b₁ → b₁.timeout = b.timeout := by
    rintro _ (_ | _ | _) <;> rfl
  cases hcomes with
  | runs hopens hruns => exact hruns.timeout.trans (hopened hopens)
  | rests hopens _ hrests => exact hrests.timeout.trans (hopened hopens)

/-- What holds of a bridge and its calls since some moment. -/
structure Since (b b' : Bridge) : Prop where
  steady : b'.Steady
  timely : b'.Timely
  timeout : b'.timeout = b.timeout
  after : ∀ n c, b.call? n = some c → ∃ c', b'.call? n = some c' ∧ c.After c'

theorem since_course (h : b.Steady) (ht : b.Timely) (hcourse : b.Course b') : b.Since b' := by
  induction hcourse with
  | refl => exact ⟨h, ht, rfl, fun n c hc => ⟨c, hc, .refl c⟩⟩
  | tail _ hmove ih =>
    have hcomes := comes_of_move hmove
    refine ⟨ih.steady.comes hcomes, ih.timely.comes ih.steady hcomes,
      (timeout_comes hcomes).trans ih.timeout, fun n c hc => ?_⟩
    obtain ⟨c₁, hc₁, hafter⟩ := ih.after n c hc
    obtain ⟨c₂, hc₂, hafter'⟩ := ih.steady.after_comes hcomes hc₁
    exact ⟨c₂, hc₂, hafter.trans hafter'⟩

theorem Steady.mem_of_call? (hc : b.call? n = some c) :
    ∃ x ∈ b.switchboard.exchangeList, c ∈ x.calls := by
  obtain ⟨seat, -, hc⟩ := Option.bind_eq_some_iff.1 hc
  obtain ⟨x, hx, hc⟩ := Option.bind_eq_some_iff.1 hc
  exact ⟨x, mem_exchangeList hx, List.mem_of_find?_eq_some hc⟩

theorem reply?_of_answered {r : Reply} (hc : b.call? n = some c) (hr : c.phase = .answered r) :
    b.reply? n = some r := by
  rw [reply?_eq, hc]
  simp [Call.answer?, hr]

/-- **Once its job has ended a request is answered in time.** Each request that has come to a
bridge is answered, or its job has not come to its end yet, or it waits for its reply and has time
left. From any moment on at which its job has ended, it is unanswered for less than the time that
requests are given. -/
theorem answered_in_time {config : Config} {files : FileTree} {b₀ : Bridge}
    (hnew : new? config files = some b₀) (h : b₀.Course b) (hn : n < b.inbound.length) :
    ∃ c, b.call? n = some c ∧
      ((∃ r, b.reply? n = some r) ∨ c.phase = .dispatching ∨
        ∃ deadline, c.phase = .waiting deadline ∧ b.now < deadline) ∧
      (c.phase ≠ .dispatching → b.now + Clock.far ≤ Clock.last →
        ∀ b', b.Course b' → b'.reply? n = none →
          b'.now < b.now + config.listener.responseTimeout) := by
  obtain ⟨hsteady₀, htimely₀⟩ := steady_new hnew
  have hsince := since_course hsteady₀ htimely₀ h
  have hlength : b.seats.length = b.inbound.length := List.length_map _
  obtain ⟨c, hc⟩ := hsince.steady.called n (hlength ▸ hn)
  obtain ⟨x, hx, hmem⟩ := Steady.mem_of_call? hc
  have hseated := hsince.steady.seated x hx c hmem
  have htimely := hsince.timely x hx c hmem
  refine ⟨c, hc, ?_, fun hjob hclock b' h' hnone => ?_⟩
  · cases hseated with
    | dispatching hphase => exact .inr (.inl hphase)
    | answered r hphase => exact .inl ⟨r, reply?_of_answered hc hphase⟩
    | waiting t _ hphase => exact .inr (.inr ⟨_, hphase, htimely _ hphase⟩)
  · have hsince' := since_course hsince.steady hsince.timely h'
    obtain ⟨c', hc', hafter⟩ := hsince'.after n c hc
    have hunanswered : ¬∃ r, c'.phase = .answered r := by
      rintro ⟨r, hr⟩
      cases hnone.symm.trans (reply?_of_answered hc' hr)
    cases hseated with
    | dispatching hphase => exact absurd hphase hjob
    | answered r hphase => exact absurd (hafter.answered ⟨r, hphase⟩) hunanswered
    | waiting t ht hphase =>
      have hwaits := (hafter.waiting _ hphase).resolve_right hunanswered
      obtain ⟨x', hx', hmem'⟩ := Steady.mem_of_call? hc'
      have hlt := hsince'.timely x' hx' c' hmem' _ hwaits
      have hle : Clock.afterOrFar t b.timeout ≤ b.now + b.timeout :=
        Clock.afterOrFar_le ht hclock
      have htimeout := hsince.timeout.trans (timeout_new hnew)
      omega

/-- Replies have to come within five seconds. -/
def brisk : Config := { listener := { responseTimeout := 5 } }

/-- A request with a body that is there. -/
def complete : Message := ⟨default, [], [.chunk (Octets.ofString "hello")]⟩

/-- Nobody replies: the request is unanswered for four seconds, and is answered after five. -/
theorem answered_in_time_brisk :
    ∃ b₀ b c, new? brisk .empty = some b₀ ∧ b₀.Course b ∧ b.call? 0 = some c ∧
      c.phase = .waiting 5 ∧ (b.advance 4).reply? 0 = none ∧ (b.advance 4).now < b.now + 5 ∧
      (b.advance 5).reply? 0 = some .timedOut := by
  have hend : (new? brisk .empty).map (fun b₀ =>
      let b := (b₀.start stall).1.receive 0 complete
      (b.inbound.length, b.now, (b.call? 0).map (·.phase), (b.advance 4).reply? 0,
        (b.advance 5).reply? 0)) =
      some (1, 0, some (.waiting 5), none, some .timedOut) := by decide +kernel
  obtain ⟨b₀, hnew, hend⟩ := Option.map_eq_some_iff.1 hend
  simp only [Prod.mk.injEq] at hend
  obtain ⟨hlength, hnow, hphase, hnone, htimedOut⟩ := hend
  have hcourse : b₀.Course ((b₀.start stall).1.receive 0 complete) :=
    .tail (.single (.start stall)) (.receive 0 complete)
  have hn : 0 < ((b₀.start stall).1.receive 0 complete).inbound.length := by omega
  obtain ⟨c, hc, -, hbound⟩ := answered_in_time hnew hcourse hn
  rw [hc] at hphase
  have hwaits : c.phase = .waiting 5 := Option.some.inj hphase
  have hclock : ((b₀.start stall).1.receive 0 complete).now + Clock.far ≤ Clock.last := by
    rw [hnow]
    decide
  exact ⟨b₀, _, c, hnew, hcourse, hc, hwaits, hnone,
    hbound (by simp [hwaits]) hclock _ (.single (.advance 4)) hnone, htimedOut⟩

/-- **Before its job has ended nothing limits the time of a request.** The body of a request is
held up. Twice the time has passed that requests are given, and the request is not answered. -/
theorem unanswered_held_up :
    ∃ b₀ b, new? brisk .empty = some b₀ ∧ b = (b₀.start stall).1.receive 0 heldUp ∧
      b₀.Course (b.advance 10) ∧ b.inbound.length = 1 ∧ b.now = 0 ∧ (b.advance 10).now = 10 ∧
      (b.advance 10).reply? 0 = none ∧
      ¬ (b.advance 10).now < b.now + brisk.listener.responseTimeout := by
  have hend : (new? brisk .empty).map (fun b₀ =>
      let b := (b₀.start stall).1.receive 0 heldUp
      (b.inbound.length, b.now, (b.advance 10).now, (b.advance 10).reply? 0)) =
      some (1, 0, 10, none) := by decide +kernel
  obtain ⟨b₀, hnew, hend⟩ := Option.map_eq_some_iff.1 hend
  simp only [Prod.mk.injEq] at hend
  obtain ⟨hlength, hnow, hnow', hnone⟩ := hend
  refine ⟨b₀, _, hnew, rfl, ?_, hlength, hnow, hnow', hnone, ?_⟩
  · exact .tail (.tail (.single (.start stall)) (.receive 0 heldUp)) (.advance 10)
  · rw [hnow, hnow']
    decide

end Bridge

end Correlator
