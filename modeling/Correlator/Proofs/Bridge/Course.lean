import Correlator.Bridge.Step
import Correlator.Proofs.Bridge.Mirror
import Correlator.Proofs.Gates
import Correlator.Proofs.Send.Content

/-!
# The course of a bridge

Whatever happens to a bridge from its beginning, its sends are voyages among each other.

* `Bridge.Move`: what may happen to a bridge from outside; `Bridge.Hears`: besides, which listeners
  were called that somebody has kept.
* `Bridge.mirrored_send`: a request that goes out begins a voyage; `Bridge.mirrored_come`: one that
  comes in has a place in the tally.
* `Bridge.mirrored_move`: mirrors are kept, whatever happens.
* `Bridge.Course`: one thing after another; `Bridge.mirrored_course`: mirrors are kept meanwhile.
* **`Bridge.accounted_of_course`**: every send of a bridge is a voyage, which is accounted for,
  nothing of it is undone, and every event that was handed out has its origin.

A bridge keeps what it hands out until somebody looks at it; here nobody does.
-/

namespace Correlator

namespace Bridge

variable {b b' b'' : Bridge} {o : Outgoing} {tally : Tally} {hands tasks : List Task} {n : Nat}
  {calls : List ConsumerCall}

/-! ## Requests that go out -/

/-- A task on hand is about a send that there is. -/
theorem Mirrors.send_lt (h : b.Mirrors o tally hands) {t : Task} (ht : t.send? = some n)
    (hpos : 0 < b.pending hands t) : n < b.sends.length := by
  obtain ⟨v, s, -, hs, -⟩ := h.due t n ht hpos
  exact (List.getElem?_eq_some_iff.1 hs).1

/-- One more send waits for its answer. -/
theorem Mirrors.snoc (h : b.Mirrors o tally hands) {v : Voyage} {s : Send} {request : Request}
    (hsend : v.send = s.bare) (hstage : v.stage = .carried) (hreading : s.reading? = none)
    (hrequests : v.requests = [request]) (hcalls : v.calls = []) :
    Mirrors { b with sends := b.sends ++ [s], requests := b.requests ++ [request] }
      { o with voyages := o.voyages ++ [v] } tally (.transport b.sends.length :: hands) := by
  have hlength := h.length_eq
  have hnew : ∀ t, t.send? = some b.sends.length → b.pending hands t = 0 := fun t ht => by
    have hlt := h.send_lt (t := t) ht
    omega
  have hmore : ∀ t, Bridge.pending { b with
      sends := b.sends ++ [s], requests := b.requests ++ [request] }
      (.transport b.sends.length :: hands) t =
        b.pending hands t + if .transport b.sends.length = t then 1 else 0 :=
    b.pending_cons (.transport b.sends.length) hands
  constructor
  · exact h.switchboard
  · exact h.files
  · exact h.limit
  · simp only [List.map_append, h.sends, List.map_cons, List.map_nil, hsend]
  · simp only [List.map_append, h.requests, List.map_cons, List.map_nil, hrequests]
  · intro t m ht hpos
    rw [hmore] at hpos
    by_cases he : .transport b.sends.length = t
    · subst he
      cases ht
      refine ⟨v, s, ?_, List.getElem?_concat_length, hstage, hreading⟩
      rw [← hlength]
      exact List.getElem?_concat_length
    · rw [if_neg he] at hpos
      obtain ⟨w, r, hw, hr, hdue⟩ := h.due t m ht hpos
      refine ⟨w, r, ?_, ?_, hdue⟩
      · exact (List.getElem?_append_left (List.getElem?_eq_some_iff.1 hw).1).trans hw
      · exact (List.getElem?_append_left (List.getElem?_eq_some_iff.1 hr).1).trans hr
  · intro m
    rw [hmore, hmore]
    have honce := h.once m
    by_cases hm : b.sends.length = m
    · have hzero := hnew (.transport m) (by simp [Task.send?, hm])
      have hzero' := hnew (.deliver m) (by simp [Task.send?, hm])
      simp [hm, hzero, hzero']
    · simpa [hm] using honce
  · intro t hmem m r ht hr
    rcases Nat.lt_or_ge m b.sends.length with hlt | hge
    · rw [List.getElem?_append_left hlt] at hr
      exact h.line t hmem m r ht hr
    · rw [List.getElem?_append_right hge] at hr
      cases List.mem_singleton.1 (List.mem_of_getElem? hr)
      exact hreading
  · refine h.tallied.shift rfl List.prefix_rfl fun m => ?_
    simp [hmore]
  · simpa [hcalls, ConsumerCall.handed] using h.events

/-- A request is given to the transport. -/
theorem mirrored_post (h : b.Mirrors o tally hands) {sink : RequestSink} {event : Event}
    {request : Request} (answer : Answer) (hrequest : sink.request event = .ok request) :
    Mirrored o tally
      { b with
        sends := b.sends ++ [⟨request, sink.delivery event request.url b.limit, answer, none, .new⟩]
        requests := b.requests ++ [request] }
      (.transport b.sends.length :: hands) := by
  have hpublish : o.Reaches _ := .single (.publish sink event answer request hrequest)
  have hpost := hpublish.tail (.voyage o.voyages.length List.getElem?_concat_length (.post rfl))
  refine ⟨_, tally, hpost, .refl tally, ?_⟩
  rw [List.set_append_right _ _ (Nat.le_refl _), Nat.sub_self, List.set_cons_zero]
  refine h.snoc ?_ rfl rfl rfl rfl
  simp only [Voyage.new, h.limit]
  rfl

theorem spares_expire (b : Bridge) : b.Spares b.expire := by
  have hconsumers : b.expire.switchboard.consumers = b.switchboard.consumers := by
    show (b.switchboard.exchangeList.map _).map _ = _
    rw [List.map_map]
    exact List.map_congr_left fun x _ =>
      congrArg (fun front => front.2.1) (x.stays_expire b.now).front
  exact ⟨⟨rfl, rfl, rfl, rfl, rfl, hconsumers ▸ List.prefix_rfl⟩, rfl, rfl, rfl, rfl⟩

theorem Mirrored.expire (h : Mirrored o tally b hands) : Mirrored o tally b.expire hands :=
  h.bind fun h => h.spare (spares_expire _)

theorem spares_nextAnswer (b : Bridge) : b.Spares b.nextAnswer.2 := by
  unfold nextAnswer
  split
  · exact ⟨⟨rfl, rfl, rfl, rfl, rfl, List.prefix_rfl⟩, rfl, rfl, rfl, rfl⟩
  · exact .refl b

/-- A task comes to a gate, and waits there unless it goes right through. -/
theorem mirrored_atGate {t : Task} (h : b.Mirrors o tally (t :: hands)) (gate : String) :
    Mirrored o tally { b with gates := (b.gates.arrive gate t).1 }
      (if (b.gates.arrive gate t).2 then t :: hands else hands) := by
  unfold Gates.arrive
  split
  · exact h.shift .refl ⟨rfl, rfl, rfl, rfl, rfl, List.prefix_rfl⟩ (fun _ => Nat.le_refl _) h.line
  · refine h.shift .refl ⟨rfl, rfl, rfl, rfl, rfl, List.prefix_rfl⟩ (fun t' => ?_) h.line
    simp only [pending, Bool.false_eq_true, if_false, List.map_append, List.map_cons, List.map_nil,
      List.count_append, List.count_cons, List.count_nil]
    omega

/-- An event is sent as a request, whose answer arrives at once or is held up at a gate. -/
theorem mirrored_send (h : b.Mirrors o tally hands) (sink : RequestSink) (event : Event) :
    Mirrored o tally (b.send sink event).1 hands := by
  unfold send post
  cases hrequest : sink.request event with
  | error fault => exact h.mirrored
  | ok request =>
    have hnext := spares_nextAnswer b
    dsimp only
    generalize b.nextAnswer = r at hnext ⊢
    obtain ⟨answer, b₁⟩ := r
    have hpost : Mirrored o tally _ _ :=
      (h.spare hnext).bind fun h => mirrored_post h answer hrequest
    have hsent := hpost.bind fun h => h.spare (spares_count _ (.requestsSent sink.config.sinkId))
    dsimp only at hsent ⊢
    rw [← hnext.sends]
    generalize Bridge.count _ _ = b₂ at hsent ⊢
    cases answer.hold? with
    | none => exact (hsent.bind mirrored_arrive).expire
    | some gate =>
      dsimp only
      have hgate := hsent.bind fun h => mirrored_atGate h gate
      generalize b₂.gates.arrive gate _ = r at hgate ⊢
      obtain ⟨gates, through⟩ := r
      cases through with
      | true => exact (hgate.bind mirrored_arrive).expire
      | false => exact hgate

/-! ## Moves -/

/-- A reply is given. -/
theorem spares_answer (b : Bridge) (sourceId id : String) (reply : Reply) :
    b.Spares (b.answer sourceId id reply).1 := by
  unfold answer
  split
  · exact spares_count ..
  · have halter : ∀ n, b.Spares (b.alterExchange n fun x => (x.reply id reply).1) :=
      spares_alterExchange (fun x => congrArg (fun front => front.2.1) (x.front_reply id reply)) b
    dsimp only
    split
    · exact halter _
    · exact (halter _).trans (spares_count ..)

theorem spares_give (b : Bridge) (sourceId : String) (answer? : Option (String × Reply)) :
    b.Spares (b.give sourceId answer?).1 := by
  unfold give
  split
  · exact spares_count ..
  · exact spares_answer ..

theorem spares_respond (b : Bridge) (sink : ResponseSink) (event : Event) :
    b.Spares (b.respond sink event).1 := by
  unfold respond
  split
  · exact .refl b
  · exact spares_give ..

/-- An event is given to an element. -/
theorem mirrored_handle (h : b.Mirrors o tally hands) (element : Element) (event : Event) :
    Mirrored o tally (b.handle element event).1 hands := by
  unfold handle
  split
  · split
    · exact mirrored_send h ..
    · exact h.mirrored
  · split
    · exact h.spare (spares_respond ..)
    · exact h.mirrored
  · exact h.mirrored

/-- A request comes, and its task comes into the hands of the bridge. -/
theorem mirrored_come (h : b.Mirrors o tally hands) (i : Inbound) :
    Mirrored o tally { b with inbound := b.inbound ++ [i] }
      (.dispatch b.inbound.length :: hands) := by
  have herrands : errands { b with inbound := b.inbound ++ [i] } =
      b.errands ++ [(i.exchange, i.dispatch)] := List.map_append
  have hlength : b.errands.length = b.inbound.length := List.length_map _
  have htallied : Tallied { b with inbound := b.inbound ++ [i] } tally.come
      (.dispatch b.inbound.length :: hands) :=
    hlength ▸ h.tallied.come herrands List.prefix_rfl fun _ => rfl
  have hpending : ∀ t, t.send? ≠ none →
      b.pending (.dispatch b.inbound.length :: hands) t = b.pending hands t := fun t ht => by
    have hne : ¬Task.dispatch b.inbound.length = t := by
      rintro rfl
      exact ht rfl
    rw [pending_cons, if_neg hne, Nat.add_zero]
  exact ⟨o, tally.come, .refl, tally.grows_come, {
    h with
    due := fun t n ht hpos => h.due t n ht (hpending t (by simp [ht]) ▸ hpos)
    once := fun n => by
      have honce := h.once n
      rwa [← hpending (.transport n) nofun, ← hpending (.deliver n) nofun] at honce
    tallied := htallied
    events := by
      rw [Tally.events_come]
      exact h.events }⟩

/-- A request comes in. -/
theorem mirrored_receive (h : b.Mirrors o tally hands) (exchange : Nat) (m : Message) :
    Mirrored o tally (b.receive exchange m) hands := by
  unfold receive
  split
  · exact h.mirrored
  · have hspares : ∀ (b : Bridge) (id : String),
        b.Spares (b.alterExchange exchange fun x => (x.park id).checkOpen id) := fun b id =>
      spares_alterExchange
        (fun x => congrArg (fun front => front.2.1) ((x.park id).front_checkOpen id)) b exchange
    have hcome : ∀ i, Mirrored o tally _ _ := fun i =>
      (mirrored_come h i).bind fun h => h.spare (hspares _ (MessageId.ofNumber b.inbound.length))
    dsimp only
    split
    · exact ((hcome _).bind fun h => mirrored_submit h fun _ _ ht => nomatch ht).expire
    · exact (hcome _).bind fun h => h.drop.mirrored

/-- Tasks go on one after another. -/
theorem mirrored_foldl_passed (h : b.Mirrors o tally tasks) :
    Mirrored o tally (tasks.foldl passed b) [] := by
  induction tasks generalizing b o tally with
  | nil => exact h.mirrored
  | cons t tasks ih => exact (mirrored_passed h).bind ih

/-- A pass for a gate lets a task go on. -/
theorem mirrored_openGate (h : b.Mirrors o tally []) (gate : String) :
    Mirrored o tally (b.openGate gate) [] := by
  have hperm := (b.gates.perm_release gate 1).map (·.2)
  unfold openGate
  generalize b.gates.release gate 1 = r at hperm ⊢
  obtain ⟨gates, through⟩ := r
  dsimp only at hperm
  refine Mirrored.expire (Mirrored.bind ?_ mirrored_foldl_passed)
  refine h.shift .refl ⟨rfl, rfl, rfl, rfl, rfl, List.prefix_rfl⟩ (fun t => ?_) h.line
  have hcount := hperm.count_eq t
  simp only [List.map_append, List.map_map, Function.comp_def, List.map_id', List.count_append]
    at hcount
  simp only [pending, List.count_nil]
  omega

/-- Whoever is turned away, nothing is read for it. -/
theorem fresh_turnAway {t t' : Task} (h : t'.Fresh b.sends) : t'.Fresh (b.turnAway t).sends := by
  cases t with
  | transport n => exact h
  | dispatch n =>
    unfold turnAway
    dsimp only
    split
    · exact h
    · exact h
  | deliver n =>
    intro m r ht hr
    obtain ⟨s, hs, rfl⟩ := Option.map_eq_some_iff.1 ((List.getElem?_modify _ _ _ _).symm.trans hr)
    have hreading := h m s ht hs
    split
    · exact hreading
    · exact hreading

/-- Deliveries that have not begun are turned away one after another. -/
theorem mirrored_foldl_turnAway (h : b.Mirrors o tally tasks) (ht : ∀ t ∈ tasks, t.Fresh b.sends) :
    Mirrored o tally (tasks.foldl turnAway b) [] := by
  induction tasks generalizing b o tally with
  | nil => exact h.mirrored
  | cons t tasks ih =>
    exact (mirrored_turnAway h (ht t List.mem_cons_self)).bind fun h =>
      ih h fun t' ht' => fresh_turnAway (ht t' (List.mem_cons_of_mem t ht'))

/-- The deliveries in line are turned away when the pool is closed. -/
theorem mirrored_closePool (h : b.Mirrors o tally []) : Mirrored o tally b.closePool [] := by
  have hclosed : Mirrored o tally { b with pool := b.pool.close.1 } b.pool.line := by
    refine h.shift .refl ⟨rfl, rfl, rfl, rfl, rfl, List.prefix_rfl⟩ (fun t => ?_)
      (by simp [Pool.close])
    simp only [pending, Pool.close, List.count_nil]
    omega
  obtain ⟨o', tally', hr, hgrows, h'⟩ := hclosed
  obtain ⟨o'', tally'', hr', hgrows', h''⟩ := mirrored_foldl_turnAway h' h.line
  exact Mirrored.expire ⟨o'', tally'', hr.trans hr', hgrows.trans hgrows', h''⟩

/-- Everything is given up that is still under way. -/
theorem mirrored_giveUp (h : b.Mirrors o tally []) : Mirrored o tally b.giveUp [] := by
  unfold giveUp
  split
  · exact h.mirrored
  · refine h.shift .refl ⟨rfl, rfl, rfl, rfl, rfl, List.prefix_rfl⟩ (fun t => ?_) (by simp [gauge])
    simp [pending, gauge]

/-- What may happen to a bridge from outside. -/
inductive Move (b : Bridge) : Bridge → Prop
  | start (p : Pipeline) : Move b (b.start p).1
  | shutdown (p : Pipeline) : Move b (b.shutdown p).1
  | publish (p : Pipeline) (id : String) (event : Event) : Move b (b.publish p id event).1
  | handle (element : Element) (event : Event) : Move b (b.handle element event).1
  | receive (exchange : Nat) (m : Message) : Move b (b.receive exchange m)
  | forward (forwarder : Nat) (event : Event) : Move b (b.forward forwarder event).1
  | advance (seconds : Nat) : Move b (b.advance seconds)
  | openGate (gate : String) : Move b (b.openGate gate)
  | closePool : Move b b.closePool
  | giveUp : Move b b.giveUp
  | prepare (answer : Answer) : Move b (b.prepare answer)

/-- The call of a listener that somebody has kept, when it is handed an event. -/
def keptCalls (b : Bridge) (forwarder : Nat) (event : Event) : List ConsumerCall :=
  (b.switchboard.callee? (.inr forwarder)).toList.map fun k => ⟨k, event, !k.fails event⟩

theorem forward_eq_hand (b : Bridge) (m : Nat) (event : Event) :
    (b.forward m event).1 =
      { b with events := b.events ++ ConsumerCall.handed (b.keptCalls m event) } := by
  unfold keptCalls
  rw [forward_eq]
  cases b.switchboard.callee? (.inr m) with
  | none => simp [ConsumerCall.handed]
  | some k => exact congrArg Prod.fst (hand_eq b k event)

/-- A listener that somebody has kept is called, and the tally says so. -/
theorem mirrors_forward (h : b.Mirrors o tally hands) (m : Nat) (event : Event) :
    (b.forward m event).1.Mirrors o (tally.hear (b.keptCalls m event)) hands := by
  rw [forward_eq_hand]
  exact {
    h with
    tallied := {
      h.tallied with
      made := fun n call hcall => h.tallied.made n call hcall }
    events := by
      rw [Tally.events_hear, ← List.append_assoc]
      exact h.events.append_right _ }

/-- What may happen to a bridge, with the calls of listeners that somebody has kept. -/
inductive Hears (b : Bridge) : Bridge → List ConsumerCall → Prop
  | move {b' : Bridge} : b.Move b' → Hears b b' []
  | forward (m : Nat) (event : Event) : Hears b (b.forward m event).1 (b.keptCalls m event)

/-- Whatever happens to a bridge, its sends are voyages that go on. -/
theorem mirrored_move (hkept : o.Kept) (h : b.Mirrors o tally []) (hmove : b.Move b') :
    ∃ calls, b.Hears b' calls ∧ Mirrored o (tally.hear calls) b' [] := by
  have hwired : b.switchboard.Wired := h.switchboard ▸ hkept.wired
  -- all but one of the moves call no listener that somebody has kept
  have hquiet : Mirrored o tally b' [] → ∃ calls, b.Hears b' calls ∧
      Mirrored o (tally.hear calls) b' [] := fun hmirrored => by
    refine ⟨[], .move hmove, ?_⟩
    rwa [Tally.hear_nil]
  cases hmove with
  | start p =>
    refine hquiet (h.shift (p.shifts_start hwired) ⟨rfl, rfl, rfl, rfl, rfl, ?_⟩
      (fun _ => Nat.le_refl _) h.line)
    exact Switchboard.consumers_turns (p.turns_start b.switchboard)
  | shutdown p =>
    refine hquiet (h.shift (p.shifts_shutdown hwired) ⟨rfl, rfl, rfl, rfl, rfl, ?_⟩
      (fun _ => Nat.le_refl _) h.line)
    exact Switchboard.consumers_turns (p.turns_shutdown b.switchboard)
  | publish p id event =>
    refine hquiet ?_
    unfold publish
    split
    · exact h.mirrored
    · exact mirrored_handle h ..
  | handle element event => exact hquiet (mirrored_handle h ..)
  | receive exchange m => exact hquiet (mirrored_receive h ..)
  | forward forwarder event =>
    exact ⟨_, .forward forwarder event, (mirrors_forward h forwarder event).mirrored⟩
  | advance seconds =>
    have hspares : b.Spares { b with now := b.now + seconds } :=
      ⟨⟨rfl, rfl, rfl, rfl, rfl, List.prefix_rfl⟩, rfl, rfl, rfl, rfl⟩
    exact hquiet (h.spare hspares).expire
  | openGate gate => exact hquiet (mirrored_openGate h gate)
  | closePool => exact hquiet (mirrored_closePool h)
  | giveUp => exact hquiet (mirrored_giveUp h)
  | prepare answer =>
    exact hquiet (h.spare ⟨⟨rfl, rfl, rfl, rfl, rfl, List.prefix_rfl⟩, rfl, rfl, rfl, rfl⟩)

/-- What happens to a bridge, one thing after another. -/
abbrev Course : Bridge → Bridge → Prop := Relation.ReflTransGen Move

/-- What happens to a bridge, one thing after another, with the calls of listeners that somebody has
kept. -/
inductive HearsAll (b : Bridge) : Bridge → List ConsumerCall → Prop
  | refl : HearsAll b b []
  | tail {b' b'' : Bridge} {calls calls' : List ConsumerCall} : HearsAll b b' calls →
      b'.Hears b'' calls' → HearsAll b b'' (calls ++ calls')

/-- As long as anything happens to a bridge, its sends are voyages that go on. -/
theorem mirrored_course (hkept : o.Kept) (h : b.Mirrors o tally []) (hcourse : b.Course b') :
    ∃ calls, b.HearsAll b' calls ∧ Mirrored o (tally.hear calls) b' [] := by
  induction hcourse with
  | refl => exact ⟨[], .refl, (Tally.hear_nil tally).symm ▸ h.mirrored⟩
  | tail _ hmove ih =>
    obtain ⟨calls, hhears, o', tally', hr, hgrows, h'⟩ := ih
    obtain ⟨calls', hhears', o'', tally'', hr', hgrows', h''⟩ :=
      mirrored_move (Outgoing.kept_reaches hkept hr) h' hmove
    refine ⟨calls ++ calls', hhears.tail hhears', o'', tally'', hr.trans hr', ?_, h''⟩
    rw [← Tally.hear_hear]
    exact (hgrows.hear calls').trans hgrows'

theorem pending_new {c : Config} {files : FileTree} (h : new? c files = some b) (t : Task) :
    b.pending [] t = 0 := by
  obtain ⟨pool, hpool, rfl⟩ := Option.map_eq_some_iff.1 h
  have hline : pool.line = [] := by
    unfold Pool.new? at hpool
    split at hpool
    · cases hpool
      rfl
    · cases hpool
  simp [pending, Gates.empty, hline]

/-- Where nothing has happened there are no voyages. -/
theorem mirrors_new {c : Config} {files : FileTree} (h : new? c files = some b) :
    b.Mirrors (.fresh c.workers.maxPayload files) .empty [] := by
  have hnone := pending_new h
  have hline : b.pool.line = [] := List.eq_nil_iff_forall_not_mem.2 fun t ht => by
    have hcount := List.count_pos_iff.2 ht
    have hpending := hnone t
    simp only [pending] at hpending
    omega
  obtain ⟨pool, -, rfl⟩ := Option.map_eq_some_iff.1 h
  refine ⟨rfl, rfl, rfl, rfl, rfl, fun t n ht hpos => ?_, fun n => ?_, ?_, ?_, ?_⟩
  · rw [hnone] at hpos
    cases hpos
  · rw [hnone, hnone]
    exact Nat.zero_le 1
  · rw [hline]
    exact List.forall_mem_nil _
  · refine ⟨rfl, fun n => ?_, fun n hpos => ?_, fun n call hcall => ?_⟩
    · rw [hnone]
      exact Nat.zero_le 1
    · rw [hnone] at hpos
      cases hpos
    · cases hcall
  · simp [Outgoing.fresh, Tally.empty, Tally.events, ConsumerCall.handed]

/-- Each request is given to the transport once, in the order of the sends. -/
theorem Mirrors.requests_eq (h : b.Mirrors o tally hands) (hkept : o.Kept) :
    b.requests = b.sends.map (·.request) := by
  have hone : o.voyages.map (·.requests) = o.voyages.map fun v => [v.send.request] := by
    refine List.map_congr_left fun v hv => ?_
    have hmem : v.requests ∈ b.requests.map fun r => [r] :=
      h.requests ▸ List.mem_map_of_mem hv
    obtain ⟨r, -, hr⟩ := List.mem_map.1 hmem
    obtain ⟨-, hnone⟩ | hsome := (hkept.accounted hv).requests
    · cases hr.trans hnone
    · exact hsome
  have hsends : o.voyages.map (fun v => [v.send.request]) =
      (b.sends.map (·.request)).map fun r => [r] := by
    have hbare := congrArg (List.map fun s : Send => [s.request]) h.sends
    simpa [Send.bare, Function.comp_def] using hbare
  have hinj : Function.Injective fun r : Request => [r] := fun _ _ hr => List.singleton_inj.1 hr
  exact List.map_injective_iff.2 hinj (h.requests.symm.trans (hone.trans hsends))

/-- After any course the sends of a bridge are voyages, and the calls that it has made besides are
those of a tally. -/
theorem exists_mirrors_of_course {c : Config} {files : FileTree} {b₀ : Bridge}
    (hnew : new? c files = some b₀) (h : b₀.Course b) :
    ∃ o tally, (Outgoing.fresh c.workers.maxPayload files).Reaches o ∧
      b₀.HearsAll b tally.kept ∧ b.Mirrors o tally [] := by
  obtain ⟨calls, hhears, o, tally, hr, hgrows, hmirrors⟩ :=
    mirrored_course (Outgoing.kept_fresh c.workers.maxPayload files) (mirrors_new hnew) h
  have hkept : tally.kept = calls := hgrows.kept
  exact ⟨o, tally, hr, hkept.symm ▸ hhears, hmirrors⟩

/-- **Every send is accounted for.** Whatever happens to a bridge, each request that goes out is
given to the transport once, and the sends are voyages among each other, that go on with whatever
happens later. The events that were handed out are those of the calls that were made on voyages, of
one call at most for each request that came in, and of the calls of listeners that somebody has
kept; there are no others. In whatever order voyages take their steps, each of them is accounted
for, and it is still there after any more steps: the requests and calls that were made stay, and
what its sender has seen or was told in the end is what it always sees and is told from then on. -/
theorem accounted_of_course {c : Config} {files : FileTree} {b₀ : Bridge}
    (hnew : new? c files = some b₀) (h : b₀.Course b) :
    b.requests = b.sends.map (·.request) ∧
      (∃ o tally, (Outgoing.fresh c.workers.maxPayload files).Reaches o ∧
        b₀.HearsAll b tally.kept ∧ b.Mirrors o tally [] ∧
        ∀ b', b.Course b' → ∃ calls, b.HearsAll b' calls ∧
          Mirrored o (tally.hear calls) b' []) ∧
      ∀ o, (Outgoing.fresh c.workers.maxPayload files).Reaches o →
        ∀ (n : Nat) (v : Voyage), o.voyages[n]? = some v → v.Accounted ∧
          ∀ o', o.Reaches o' → ∃ v', o'.voyages[n]? = some v' ∧ v.Continues v' := by
  have hfresh := Outgoing.kept_fresh c.workers.maxPayload files
  obtain ⟨o, tally, hr, hhears, hmirrors⟩ := exists_mirrors_of_course hnew h
  have hkept : o.Kept := Outgoing.kept_reaches hfresh hr
  refine ⟨hmirrors.requests_eq hkept, ⟨o, tally, hr, hhears, hmirrors, fun b' h' => ?_⟩,
    fun o hr n v hn => ?_⟩
  · exact mirrored_course hkept hmirrors h'
  · have hkept : o.Kept := Outgoing.kept_reaches hfresh hr
    exact ⟨hkept.accounted (List.mem_of_getElem? hn),
      fun o' hr' => Outgoing.continues_reaches hkept hr' hn⟩

/-- A pipeline that takes requests in, and responses. -/
def counter : Pipeline :=
  ⟨"shop",
    [⟨.requestSource ⟨"orders", "/shop", []⟩ (.steady "desk"), false⟩,
      ⟨.responseSource ⟨"payments", none, false⟩ (.steady "safe"), false⟩],
    false, by simp⟩

/-- An order goes out, a request comes in, and the listener for payments is called, that somebody
has kept. -/
def busy (b : Bridge) : Bridge :=
  let b := ((b.start counter).1.handle ⟨.requestSink Outgoing.orders, true⟩ Outgoing.order).1
  let b := b.receive 0 ⟨default, [], [.chunk (Octets.ofString "hello")]⟩
  (b.forward 0 ⟨"paid", .empty⟩).1

theorem course_busy (b : Bridge) : b.Course b.busy :=
  (((Relation.ReflTransGen.single (.start counter)).tail
    (.handle ⟨.requestSink Outgoing.orders, true⟩ Outgoing.order)).tail
      (.receive 0 _)).tail (.forward 0 _)

/-- The order is answered: the till is called, and the sender sees it. The desk is called for the
request, and the safe by whoever has kept the listener. -/
theorem accounted_of_course_order :
    ∃ b₀ o tally v, new? {} .empty = some b₀ ∧ b₀.Course b₀.busy ∧ b₀.HearsAll b₀.busy tally.kept ∧
      b₀.busy.Mirrors o tally [] ∧ o.voyages = [v] ∧ v.Accounted ∧
      v.send.handle.poll.seen = .delivered 200 .consumed ∧
      b₀.busy.events.map (·.1) = ["till", "desk", "safe"] := by
  have hend : (new? {} .empty).map (fun b =>
      (b.busy.sends.map (·.handle.poll.seen), b.busy.events.map (·.1))) =
        some ([.delivered 200 .consumed], ["till", "desk", "safe"]) := by decide +kernel
  obtain ⟨b₀, hnew, heq⟩ := Option.map_eq_some_iff.1 hend
  obtain ⟨hseen, hevents⟩ := Prod.mk.inj heq
  have hcourse := course_busy b₀
  obtain ⟨-, ⟨o, tally, hr, hhears, hmirrors, -⟩, haccounted⟩ := accounted_of_course hnew hcourse
  have hvoyages := congrArg (List.map (·.handle.poll.seen)) hmirrors.sends
  simp only [List.map_map] at hvoyages
  obtain ⟨v, hv, he⟩ := List.map_eq_singleton_iff.1 (hvoyages.trans hseen)
  have hfirst : o.voyages[0]? = some v := by simp [hv]
  exact ⟨b₀, o, tally, v, hnew, hcourse, hhears, hmirrors, hv, (haccounted o hr 0 v hfirst).1, he,
    hevents⟩

end Bridge

end Correlator
