import Correlator.Proofs.Bridge.Tally

/-!
# Bridges as sends among each other

The sends of a bridge are voyages among each other: whatever a bridge does is steps of them.

* `Bridge.Mirrors`: a bridge and voyages that have come as far, with tasks on hand that are to be
  run. Each send has one task at most, which finds the send where its voyage is. The events that
  were handed out are those of the calls that were made on the voyages, and those of a tally.
* `Bridge.Leaves`, `Bridge.Spares`: a bridge has done nothing to any send, and handed nothing out.
* `Bridge.mirrored_runFrom`, `Bridge.mirrored_arrive`: jobs that run, and answers that arrive.

Mirrors are kept through any work: a task leaves the hands of the bridge when it is run, and one
that comes into its hands was in line or at a gate before.
-/

namespace Correlator

/-! ## Tasks -/

namespace Task

/-- The send that a task is about. -/
def send? : Task → Option Nat
  | .transport n | .deliver n => some n
  | .dispatch _ => none

/-- A task finds its send where it was left. -/
def Due (t : Task) (s : Send) (stage : Stage) : Prop :=
  match t with
  | .transport _ => stage = .carried ∧ s.reading? = none
  | .deliver _ => s.At stage
  | .dispatch _ => True

/-- A task finds nothing read of the response to its send. -/
def Fresh (t : Task) (sends : List Send) : Prop :=
  ∀ n s, t = .deliver n → sends[n]? = some s → s.reading? = none

theorem eq_of_send? {t : Task} {n : Nat} (h : t.send? = some n) :
    t = .transport n ∨ t = .deliver n := by
  cases t with
  | transport m =>
    cases h
    exact .inl rfl
  | deliver m =>
    cases h
    exact .inr rfl
  | dispatch m => cases h

end Task

namespace Bridge

variable {b b' b'' : Bridge} {o : Outgoing} {tally : Tally} {n : Nat} {s s' : Send} {v v' : Voyage}
  {t t' : Task} {hands hands' : List Task}

/-! ## Mirrors -/

/-- The voyages have come as far as the sends of a bridge, some of whose tasks are on hand, and a
tally is kept of what is done for no send. -/
structure Mirrors (b : Bridge) (o : Outgoing) (tally : Tally) (hands : List Task) : Prop where
  switchboard : o.switchboard = b.switchboard
  files : o.files = b.files
  limit : o.limit = b.limit
  sends : o.voyages.map (·.send) = b.sends.map Send.bare
  requests : o.voyages.map (·.requests) = b.requests.map fun r => [r]
  /-- A task finds its send where the voyage is. -/
  due : ∀ t n, t.send? = some n → 0 < b.pending hands t → ∃ v s, o.voyages[n]? = some v ∧
    b.sends[n]? = some s ∧ t.Due s v.stage
  /-- A send has one task at most. -/
  once : ∀ n, b.pending hands (.transport n) + b.pending hands (.deliver n) ≤ 1
  /-- Nothing has been read for a delivery in line. -/
  line : ∀ t ∈ b.pool.line, t.Fresh b.sends
  tallied : b.Tallied tally hands
  /-- The events that were handed out are those of calls that have returned, and of no others. -/
  events : b.events.Perm
    ((o.voyages.flatMap fun v => ConsumerCall.handed v.calls) ++ tally.events)

/-- Voyages that are reached have come as far as the sends of a bridge, and a tally that has grown
is that of the bridge. -/
def Mirrored (o : Outgoing) (tally : Tally) (b : Bridge) (hands : List Task) : Prop :=
  ∃ o' tally', o.Reaches o' ∧ tally.Grows tally' ∧ b.Mirrors o' tally' hands

theorem Mirrors.mirrored (h : b.Mirrors o tally hands) : Mirrored o tally b hands :=
  ⟨o, tally, .refl, .refl tally, h⟩

theorem Mirrored.bind (h : Mirrored o tally b hands)
    (hb : ∀ {o' tally'}, b.Mirrors o' tally' hands → Mirrored o' tally' b' hands') :
    Mirrored o tally b' hands' := by
  obtain ⟨o₁, tally₁, hr₁, hg₁, h₁⟩ := h
  obtain ⟨o₂, tally₂, hr₂, hg₂, h₂⟩ := hb h₁
  exact ⟨o₂, tally₂, hr₁.trans hr₂, hg₁.trans hg₂, h₂⟩

namespace Mirrors

theorem send_eq (h : b.Mirrors o tally hands) (hv : o.voyages[n]? = some v)
    (hs : b.sends[n]? = some s) : v.send = s.bare := by
  have hsends := congrArg (·[n]?) h.sends
  simpa [hv, hs] using hsends

theorem length_eq (h : b.Mirrors o tally hands) : o.voyages.length = b.sends.length := by
  simpa using congrArg List.length h.sends

/-- A task on hand is nowhere else, and neither is another one of its send. -/
theorem free (h : b.Mirrors o tally (t :: hands)) (ht : t.send? = some n) :
    b.pending hands (.transport n) = 0 ∧ b.pending hands (.deliver n) = 0 := by
  have honce := h.once n
  simp only [pending_cons] at honce
  obtain rfl | rfl := Task.eq_of_send? ht
  · simp at honce
    omega
  · simp at honce
    omega

/-- The task on hand finds its send. -/
theorem found (h : b.Mirrors o tally (t :: hands)) (ht : t.send? = some n) :
    ∃ v s, o.voyages[n]? = some v ∧ b.sends[n]? = some s ∧ t.Due s v.stage := by
  refine h.due t n ht ?_
  simp [pending_cons]

/-- One send has gone on, and with it its voyage. -/
theorem sail (h : b.Mirrors o tally hands) (hv : o.voyages[n]? = some v)
    (hs : b.sends[n]? = some s) (hsail : Sails b b' n s' v v')
    (hother : ∀ t, t.send? ≠ some n → b'.pending hands' t ≤ b.pending hands t)
    (hown : ∀ t, t.send? = some n → 0 < b'.pending hands' t → t.Due s' v'.stage)
    (honce : b'.pending hands' (.transport n) + b'.pending hands' (.deliver n) ≤ 1)
    (hline : .deliver n ∈ b.pool.line → s'.reading? = none) : Mirrored o tally b' hands' := by
  have hlt : n < o.voyages.length := (List.getElem?_eq_some_iff.1 hv).1
  have hlt' : n < b.sends.length := (List.getElem?_eq_some_iff.1 hs).1
  have hself : (o.voyages.map (·.requests)).set n v.requests = o.voyages.map (·.requests) := by
    obtain ⟨-, rfl⟩ := List.getElem?_eq_some_iff.1 hv
    rw [← List.map_set, List.set_getElem_self]
  have hsteps := hsail.steps
  rw [← h.switchboard, ← h.files] at hsteps
  refine ⟨_, tally, Outgoing.reaches_steps hv hsteps, .refl tally, ?_⟩
  constructor
  · exact h.switchboard.trans hsail.switchboard.symm
  · rfl
  · exact h.limit.trans hsail.limit.symm
  · rw [hsail.sends, List.map_set, List.map_set, h.sends, hsail.send]
  · rw [hsail.given, List.map_set, hsail.requests, hself, h.requests]
  · intro t m ht hpos
    rw [hsail.sends]
    by_cases hm : m = n
    · subst hm
      exact ⟨v', s', List.getElem?_set_self hlt, List.getElem?_set_self hlt', hown t ht hpos⟩
    · have hle := hother t (by simp [ht, hm])
      obtain ⟨w, r, hw, hr, hdue⟩ := h.due t m ht (Nat.lt_of_lt_of_le hpos hle)
      exact ⟨w, r, (List.getElem?_set_ne (Ne.symm hm)).trans hw,
        (List.getElem?_set_ne (Ne.symm hm)).trans hr, hdue⟩
  · intro m
    by_cases hm : m = n
    · subst hm
      exact honce
    · have hle := hother (.transport m) (by simp [Task.send?, hm])
      have hle' := hother (.deliver m) (by simp [Task.send?, hm])
      have honce' := h.once m
      omega
  · intro t hmem m r ht hr
    rw [hsail.pool] at hmem
    rw [hsail.sends] at hr
    by_cases he : m = n
    · subst he
      rw [List.getElem?_set_self hlt'] at hr
      cases hr
      exact hline (ht ▸ hmem)
    · rw [List.getElem?_set_ne (Ne.symm he)] at hr
      exact h.line t hmem m r ht hr
  · refine h.tallied.shift ?_ ?_ fun m => hother (.dispatch m) nofun
    · rw [errands, errands, hsail.inbound]
    · exact hsail.switchboard.symm ▸ List.prefix_rfl
  · obtain ⟨calls, hcalls, hevents⟩ := hsail.calls
    have hhanded : ConsumerCall.handed v'.calls =
        ConsumerCall.handed v.calls ++ ConsumerCall.handed calls := by
      rw [hcalls, ConsumerCall.handed_append]
    have hvoyages := perm_flatMap_set (f := fun v => ConsumerCall.handed v.calls) hv hhanded
    rw [hevents]
    refine (h.events.append_right _).trans (.trans ?_ (hvoyages.symm.append_right _))
    rw [List.append_assoc, List.append_assoc]
    exact List.perm_append_comm.append_left _

/-- A task that was run has done what it could for its send. -/
theorem moves (h : b.Mirrors o tally (t :: hands)) (ht : t.send? = some n)
    (hv : o.voyages[n]? = some v) (hs : b.sends[n]? = some s) (hmoves : Moves b b' n s' v v') :
    Mirrored o tally b' hands := by
  obtain ⟨hfree, hfree'⟩ := h.free ht
  have hnoline : .deliver n ∉ b.pool.line := by
    intro hmem
    have hpos := List.count_pos_iff.2 hmem
    simp only [pending] at hfree'
    omega
  have hpending : ∀ t', b.pending hands t' ≤ b.pending (t :: hands) t' := fun t' => by
    rw [pending_cons]
    omega
  have hzero : ∀ t', t'.send? = some n → b.pending hands t' = 0 := by
    intro t' ht'
    obtain rfl | rfl := Task.eq_of_send? ht'
    · exact hfree
    · exact hfree'
  obtain hwaiting | ⟨gate, hwaiting, hat⟩ := hmoves.waiting
  · have hsame : ∀ t', b'.pending hands t' = b.pending hands t' := fun t' => by
      simp only [pending, hwaiting, hmoves.pool]
    refine h.sail hv hs hmoves.toSails (fun t' _ => hsame t' ▸ hpending t') ?_ ?_
      fun hmem => absurd hmem hnoline
    · intro t' ht' hpos
      rw [hsame, hzero t' ht'] at hpos
      cases hpos
    · rw [hsame, hsame, hfree, hfree']
      omega
  · have hmore : ∀ t', b'.pending hands t' =
        b.pending hands t' + if .deliver n = t' then 1 else 0 := fun t' => by
      simp only [pending, hwaiting, hmoves.pool, List.map_append, List.count_append, List.map_cons,
        List.map_nil, List.count_cons, List.count_nil, beq_iff_eq]
      omega
    refine h.sail hv hs hmoves.toSails (fun t' hne => ?_) ?_ ?_ fun hmem => absurd hmem hnoline
    · have hother : ¬Task.deliver n = t' := by
        rintro rfl
        exact hne rfl
      rw [hmore, if_neg hother]
      exact hpending t'
    · intro t' ht' hpos
      obtain rfl | rfl := Task.eq_of_send? ht'
      · simp [hmore, hfree] at hpos
      · exact hat
    · rw [hmore, hmore, hfree, hfree']
      simp

end Mirrors

/-! ## What concerns no send -/

/-- A bridge has done nothing to any send and handed nothing out, and the requests that came in are
what they were. -/
structure Leaves (b b' : Bridge) : Prop where
  limit : b'.limit = b.limit
  sends : b'.sends = b.sends
  given : b'.requests = b.requests
  events : b'.events = b.events
  errands : b'.errands = b.errands
  consumers : b.switchboard.consumers <+: b'.switchboard.consumers

/-- Besides, tasks and response sources are where they were. -/
structure Spares (b b' : Bridge) : Prop extends Leaves b b' where
  responses : b'.switchboard.responses = b.switchboard.responses
  forwarders : b'.switchboard.forwarderList = b.switchboard.forwarderList
  line : b'.pool.line = b.pool.line
  waiting : b'.gates.waiting = b.gates.waiting

theorem Leaves.refl (b : Bridge) : b.Leaves b := ⟨rfl, rfl, rfl, rfl, rfl, List.prefix_rfl⟩

theorem Leaves.trans (h : b.Leaves b') (h' : b'.Leaves b'') : b.Leaves b'' where
  limit := h'.limit.trans h.limit
  sends := h'.sends.trans h.sends
  given := h'.given.trans h.given
  events := h'.events.trans h.events
  errands := h'.errands.trans h.errands
  consumers := h.consumers.trans h'.consumers

theorem Spares.refl (b : Bridge) : b.Spares b := ⟨.refl b, rfl, rfl, rfl, rfl⟩

theorem Spares.trans (h : b.Spares b') (h' : b'.Spares b'') : b.Spares b'' where
  toLeaves := h.toLeaves.trans h'.toLeaves
  responses := h'.responses.trans h.responses
  forwarders := h'.forwarders.trans h.forwarders
  line := h'.line.trans h.line
  waiting := h'.waiting.trans h.waiting

namespace Mirrors

/-- Tasks may be taken up or laid down, and the tables of response sources may change, while
nothing is done to any send. -/
theorem shift (h : b.Mirrors o tally hands) (hshifts : b.switchboard.Shifts b'.switchboard)
    (hleaves : b.Leaves b') (hpending : ∀ t, b'.pending hands' t ≤ b.pending hands t)
    (hline : ∀ t ∈ b'.pool.line, t.Fresh b.sends) : Mirrored o tally b' hands' := by
  have hshift : ∀ s', o.switchboard.Shifts s' → o.Reaches { o with switchboard := s' } := by
    intro s' hs'
    induction hs' with
    | refl => exact .refl
    | tail _ hstep ih => exact ih.tail (.shift hstep)
  rw [← h.switchboard] at hshifts
  refine ⟨{ o with switchboard := b'.switchboard, files := b'.files }, tally,
    (hshift _ hshifts).tail (.write b'.files), .refl tally, ?_⟩
  constructor
  · rfl
  · rfl
  · exact h.limit.trans hleaves.limit.symm
  · rw [hleaves.sends]
    exact h.sends
  · rw [hleaves.given]
    exact h.requests
  · intro t n ht hpos
    rw [hleaves.sends]
    exact h.due t n ht (Nat.lt_of_lt_of_le hpos (hpending t))
  · intro n
    have hle := hpending (.transport n)
    have hle' := hpending (.deliver n)
    have honce := h.once n
    omega
  · rw [hleaves.sends]
    exact hline
  · exact h.tallied.shift hleaves.errands hleaves.consumers fun n => hpending (.dispatch n)
  · rw [hleaves.events]
    exact h.events

/-- What concerns no send changes no voyage. -/
theorem spare (h : b.Mirrors o tally hands) (hspares : b.Spares b') :
    Mirrored o tally b' hands := by
  refine h.shift (.single (.elsewhere hspares.responses hspares.forwarders)) hspares.toLeaves
    (fun t => ?_) ?_
  · simp only [pending, hspares.waiting, hspares.line]
    exact Nat.le_refl _
  · rw [hspares.line]
    exact h.line

/-- A task that concerns no send may be laid down, and any task may be forgotten. -/
theorem drop (h : b.Mirrors o tally (t :: hands)) : b.Mirrors o tally hands where
  __ := h
  due t' n ht' hpos := h.due t' n ht' (by rw [pending_cons]; omega)
  once n := by
    have honce := h.once n
    simp only [pending_cons] at honce
    omega
  tallied := h.tallied.shift rfl List.prefix_rfl fun n => by
    rw [pending_cons]
    omega

/-- An event is handed out for no send, and the tally says so. -/
theorem hand {tally' : Tally} {call : ConsumerCall} (h : b.Mirrors o tally hands)
    (htallied : b.Tallied tally' hands')
    (hevents : tally'.events.Perm (tally.events ++ ConsumerCall.handed [call]))
    (hpending : ∀ t, b.pending hands' t ≤ b.pending hands t) :
    Mirrors { b with events := b.events ++ ConsumerCall.handed [call] } o tally' hands' where
  __ := h
  due t n ht hpos := h.due t n ht (Nat.lt_of_lt_of_le hpos (hpending t))
  once n := by
    have hle := hpending (.transport n)
    have hle' := hpending (.deliver n)
    exact Nat.le_trans (Nat.add_le_add hle hle') (h.once n)
  tallied := htallied.shift rfl List.prefix_rfl fun _ => Nat.le_refl _
  events := by
    refine (h.events.append_right _).trans ?_
    rw [List.append_assoc]
    exact hevents.symm.append_left _

end Mirrors

/-! ## Dispatches -/

theorem spares_alterExchange {f : Exchange → Exchange} (hf : ∀ x, (f x).consumer = x.consumer)
    (b : Bridge) (n : Nat) : b.Spares (b.alterExchange n f) where
  limit := rfl
  sends := rfl
  given := rfl
  events := rfl
  errands := rfl
  consumers := (Switchboard.consumers_alterExchange hf b.switchboard n).symm ▸ List.prefix_rfl
  responses := rfl
  forwarders := rfl
  line := rfl
  waiting := rfl

theorem spares_join (b : Bridge) (i : Inbound) (e : DispatchEnd) : b.Spares (b.join i e) :=
  spares_alterExchange
    (fun x => congrArg (fun front => front.2.1) (x.front_joined i.id e b.deadline)) b i.exchange

theorem spares_alterInbound (b : Bridge) (n : Nat) {f : Inbound → Inbound}
    (hf : ∀ i, (f i).exchange = i.exchange ∧ (f i).dispatch = i.dispatch) :
    b.Spares (b.alterInbound n f) where
  limit := rfl
  sends := rfl
  given := rfl
  events := rfl
  errands := map_modify fun i => by rw [(hf i).1, (hf i).2]
  consumers := List.prefix_rfl
  responses := rfl
  forwarders := rfl
  line := rfl
  waiting := rfl

theorem spares_count (b : Bridge) (series : Series) : b.Spares (b.count series) :=
  ⟨⟨rfl, rfl, rfl, rfl, rfl, List.prefix_rfl⟩, rfl, rfl, rfl, rfl⟩

theorem spares_count? (b : Bridge) (series? : Option Series) : b.Spares (b.count? series?) := by
  cases series? with
  | none => exact .refl b
  | some series => exact spares_count b series

/-- The job of a request makes its call, if there is an event, and is done with. -/
theorem mirrored_concludeDispatch {i : Inbound} (h : b.Mirrors o tally (.dispatch n :: hands))
    (hi : b.inbound[n]? = some i) (read : Except Fault String) :
    Mirrored o tally (b.concludeDispatch i read) hands := by
  have hcount := spares_count? b (i.dispatch.conclude read).2.2
  have herrand : (b.count? (i.dispatch.conclude read).2.2).errands[n]? =
      some (i.exchange, i.dispatch) := by
    rw [hcount.errands, errands, List.getElem?_map, hi]
    rfl
  unfold concludeDispatch
  dsimp only
  refine (h.spare hcount).bind fun {o' tally'} h => ?_
  generalize b.count? (i.dispatch.conclude read).2.2 = b₁ at h herrand ⊢
  have howed : tally'.dispatched[n]? = some none := h.tallied.owed n (by simp [pending_cons])
  split
  · rename_i event x hevent hx
    have hcall : b₁.Dispatches n ⟨x.consumer, event, !x.consumer.fails event⟩ :=
      ⟨i.exchange, i.dispatch, read, herrand, Switchboard.consumers_of_exchange? hx, hevent, rfl⟩
    have hmade := h.hand (h.tallied.make hcall) (Tally.events_make howed _) fun t => by
      rw [pending_cons]
      omega
    have hhand : Mirrored o' tally' _ hands := ⟨o', _, .refl, Tally.grows_make howed _, hmade⟩
    rw [hand_eq]
    split
    · rename_i b₂ hb₂
      obtain ⟨rfl, -⟩ := Prod.mk.inj hb₂
      exact hhand.bind fun h => h.spare (spares_join ..)
    · rename_i b₂ hb₂
      obtain ⟨rfl, -⟩ := Prod.mk.inj hb₂
      exact hhand.bind fun h => h.spare (spares_join ..)
  · exact h.drop.spare (spares_join ..)

/-- The body of a request that came in is taken in, up to its end or a gate that holds it up. -/
theorem mirrored_resumeDispatch (h : b.Mirrors o tally (.dispatch n :: hands)) :
    Mirrored o tally (b.resumeDispatch n).1 hands := by
  unfold resumeDispatch
  split
  · exact h.drop.mirrored
  · rename_i i hi
    have hwaiting := Intake.waiting_run i.intake b.files b.gates (.dispatch n) i.rest
    unfold takeIn
    generalize i.intake.run b.files b.gates (.dispatch n) i.rest = r at hwaiting ⊢
    obtain ⟨progress, files, gates⟩ := r
    have hleaves : b.Leaves { b with files, gates } := ⟨rfl, rfl, rfl, rfl, rfl, List.prefix_rfl⟩
    cases progress with
    | ended result =>
      have hspares : b.Spares { b with files, gates } := ⟨hleaves, rfl, rfl, rfl, hwaiting⟩
      exact (h.spare hspares).bind fun h => mirrored_concludeDispatch h hi _
    | held intake rest =>
      obtain ⟨gate, hgate⟩ := hwaiting
      have hheld : Mirrored o tally { b with files, gates } hands := by
        refine h.shift .refl hleaves (fun t => ?_) h.line
        dsimp only at hgate
        simp only [pending, hgate, List.map_append, List.map_cons, List.map_nil,
          List.count_append, List.count_cons, List.count_nil]
        omega
      exact hheld.bind fun h => h.spare (spares_alterInbound _ n fun _ => ⟨rfl, rfl⟩)

/-! ## Jobs -/

/-- A task that is run leaves the hands of the bridge. -/
theorem mirrored_runJob (h : b.Mirrors o tally (t :: hands)) :
    Mirrored o tally (b.runJob t).1 hands := by
  cases t with
  | transport n => exact h.drop.mirrored
  | dispatch n => exact mirrored_resumeDispatch h
  | deliver n =>
    obtain ⟨v, s, hv, hs, hdue⟩ := h.found rfl
    obtain ⟨s', v', hmoves⟩ := moves_runDelivery hs (h.send_eq hv hs) hdue
    exact h.moves rfl hv hs hmoves

/-- The next task in line comes into the hands of the bridge. -/
theorem mirrored_release (h : b.Mirrors o tally hands) (t : Task) :
    Mirrored o tally (b.release t).1 ((b.release t).2.toList ++ hands) := by
  have hline := h.line
  unfold release Pool.release
  cases hpool : b.pool.line with
  | nil =>
    rw [hpool] at hline
    exact h.shift .refl ⟨rfl, rfl, rfl, rfl, rfl, List.prefix_rfl⟩
      (fun t' => by simp [pending, gauge, hpool]) (by simp [gauge])
  | cons next line =>
    rw [hpool] at hline
    dsimp only
    split
    · refine h.shift .refl ⟨rfl, rfl, rfl, rfl, rfl, List.prefix_rfl⟩ (fun t' => ?_)
        fun t' ht' => hline t' (List.mem_cons_of_mem _ ht')
      simp only [pending, gauge, hpool, Option.toList_some, List.singleton_append, List.count_cons]
      omega
    · exact h.shift .refl ⟨rfl, rfl, rfl, rfl, rfl, List.prefix_rfl⟩
        (fun t' => by simp [pending, gauge, hpool]) hline

/-- A job goes on, and after it those in line that come to its slot. -/
theorem mirrored_runFrom (fuel : Nat) (h : b.Mirrors o tally (t :: hands)) :
    Mirrored o tally (b.runFrom t fuel) hands := by
  induction fuel generalizing b o tally t with
  | zero => exact h.drop.mirrored
  | succ fuel ih =>
    have hjob := mirrored_runJob h
    unfold runFrom
    split
    · rename_i b₁ hb₁
      rw [hb₁] at hjob
      exact hjob
    · rename_i b₁ hb₁
      rw [hb₁] at hjob
      refine hjob.bind fun hmirrors => ?_
      have hrelease := mirrored_release hmirrors t
      split
      · rename_i b₂ next hb₂
        rw [hb₂] at hrelease
        exact hrelease.bind ih
      · rename_i b₂ hb₂
        rw [hb₂] at hrelease
        exact hrelease

/-- A delivery that has not begun is turned away. -/
theorem mirrored_turnAway (h : b.Mirrors o tally (t :: hands)) (ht : t.Fresh b.sends) :
    Mirrored o tally (b.turnAway t) hands := by
  cases t with
  | transport n => exact h.drop.mirrored
  | dispatch n =>
    unfold turnAway
    dsimp only
    split
    · exact h.drop.spare (spares_join ..)
    · exact h.drop.mirrored
  | deliver n =>
    obtain ⟨v, s, hv, hs, hdue⟩ := h.found rfl
    have hunread : s.reading? = none := ht n s rfl hs
    have hstage : v.stage = .submitted := by
      have hat : s.At v.stage := hdue
      generalize v.stage = stage at hat
      cases hat with
      | submitted _ => rfl
      | reading i rest message hreading _ => cases hunread.symm.trans hreading
    obtain ⟨s', v', hmoves⟩ := moves_told hs (h.send_eq hv hs) (.turnAway hstage) b.meter
    exact h.moves rfl hv hs hmoves

/-- A task is given to the pool. -/
theorem mirrored_submit (h : b.Mirrors o tally (t :: hands)) (ht : t.Fresh b.sends) :
    Mirrored o tally (b.submit t) hands := by
  unfold submit Pool.submit
  split
  · rename_i pool hpool
    split at hpool
    · cases hpool
    · split at hpool
      · cases hpool
        have hstarted : Mirrored o tally
            { b with pool := { b.pool with running := b.pool.running ++ [t] } }.gauge
            (t :: hands) :=
          h.shift .refl ⟨rfl, rfl, rfl, rfl, rfl, List.prefix_rfl⟩ (fun _ => Nat.le_refl _) h.line
        exact hstarted.bind fun h => mirrored_runFrom _ h
      · cases hpool
  · rename_i pool hpool
    split at hpool
    · cases hpool
    · split at hpool
      · cases hpool
      · cases hpool
        refine h.shift .refl ⟨rfl, rfl, rfl, rfl, rfl, List.prefix_rfl⟩ (fun t' => ?_)
          fun t' ht' => ?_
        · simp only [pending, List.count_append, List.count_cons, List.count_nil]
          omega
        · rcases List.mem_append.1 ht' with ht' | ht'
          · exact h.line t' ht'
          · cases List.mem_singleton.1 ht'
            exact ht
  · exact mirrored_turnAway h ht

/-! ## Answers -/

/-- The answer to a send arrives, or the transport breaks down. -/
theorem mirrored_arrive (h : b.Mirrors o tally (.transport n :: hands)) :
    Mirrored o tally (b.arrive n) hands := by
  obtain ⟨v, s, hv, hs, hstage, hunread⟩ := h.found (t := .transport n) rfl
  have hsend : v.send = s.bare := h.send_eq hv hs
  have hanswer : v.send.answer = s.answer := by
    rw [hsend]
    rfl
  have hsubmit (hne : s.answer.outcome ≠ .crashes) :
      Mirrored o tally (b.submit (.deliver n)) hands := by
    have hstep : v.Step b.switchboard b.files b.files (v.atStage .submitted) :=
      .arrive hstage (hanswer ▸ hne)
    have hself : b.sends = b.sends.set n s := by
      obtain ⟨hlt, rfl⟩ := List.getElem?_eq_some_iff.1 hs
      exact (List.set_getElem_self hlt).symm
    obtain ⟨hfree, hfree'⟩ := h.free rfl
    have hon : Mirrored o tally b (.deliver n :: hands) := by
      refine h.sail hv hs ⟨rfl, rfl, rfl, rfl, rfl, hself, hstep.steps, hsend, rfl,
        [], (List.append_nil _).symm, (List.append_nil _).symm⟩ ?_ ?_ ?_ fun _ => hunread
      · intro t hne
        have hother : ¬Task.deliver n = t := by
          rintro rfl
          exact hne rfl
        rw [pending_cons, pending_cons, if_neg hother]
        omega
      · intro t ht hpos
        obtain rfl | rfl := Task.eq_of_send? ht
        · simp [pending_cons, hfree] at hpos
        · exact .submitted hunread
      · simp [pending_cons, hfree, hfree']
    refine hon.bind fun h => mirrored_submit h ?_
    intro m r hm hr
    cases hm
    cases hs.symm.trans hr
    exact hunread
  unfold arrive
  rw [hs]
  dsimp only
  cases houtcome : s.answer.outcome with
  | crashes =>
    have hstep : v.Step b.switchboard b.files b.files _ := .lose hstage (hanswer ▸ houtcome)
    dsimp only
    rw [alterSend_eq hs]
    refine h.moves rfl hv hs ⟨⟨rfl, rfl, rfl, rfl, rfl, rfl, hstep.steps, ?_, rfl,
      [], (List.append_nil _).symm, (List.append_nil _).symm⟩, .inl rfl⟩
    simp only [Voyage.withHandle, Voyage.atStage, hsend]
    rfl
  | response status? headers body => exact hsubmit (by simp [houtcome])
  | fails fault => exact hsubmit (by simp [houtcome])

/-- A task goes on that was let through a gate. -/
theorem mirrored_passed (h : b.Mirrors o tally (t :: hands)) :
    Mirrored o tally (b.passed t) hands := by
  cases t with
  | transport n => exact mirrored_arrive h
  | deliver n => exact mirrored_runFrom _ h
  | dispatch n => exact mirrored_runFrom _ h

end Bridge

end Correlator
