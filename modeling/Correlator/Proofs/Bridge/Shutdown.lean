import Correlator.Proofs.Bridge.Custody
import Correlator.Proofs.Service.Start

/-!
# Bridges that are shut down

Pipelines come and go at a bridge, and requests with them. Once no pipeline is running and the pool
is closed, in whatever order that came about, nothing is left of all that but jobs that wait in the
middle of a body, and sends that the transport has not answered.

* `Bridge.Bides`: the switchboard stays as it is as far as it is tended, and no job starts at a
  closed pool; `Bridge.Act.bides`: so it is whatever is done, unless a request comes in.
* `Bridge.Still`: the pool is closed and nobody is parked; `Bridge.Still.act`: it stays so.
* `Site`: a bridge with its pipelines; `Site.Step`: what may happen there. A pipeline that is
  running is not forgotten.
* `Site.Kept`: the tables are what the running pipelines hold, exchanges are tended, and nothing is
  forgotten.
* `Bridge.Quiet`: what is left of whatever was under way.
* **`Site.quiet_of_course`**: that is all that is left, and no job starts and nobody is parked from
  then on.
-/

namespace Correlator

namespace Bridge

variable {b b' b'' : Bridge} {n : Nat} {t : Task}

/-! ## What is done while no request comes in -/

/-- The switchboard stays as it is as far as it is tended, and no job starts at a closed pool. -/
structure Bides (b b' : Bridge) : Prop where
  stays : b.switchboard.Stays b'.switchboard
  pool : b.pool.Shut → b.pool.Fades b'.pool

theorem Bides.refl (b : Bridge) : b.Bides b := ⟨.refl _, Pool.Shut.fades⟩

theorem Bides.trans (h : b.Bides b') (h' : b'.Bides b'') : b.Bides b'' :=
  ⟨h.stays.trans h'.stays, fun hshut => (h.pool hshut).trans (h'.pool (h.pool hshut).shut)⟩

theorem Works.bides (h : b.Works b') : b.Bides b' := ⟨h.stays, h.pool⟩

theorem bides_of_eq (hswitchboard : b'.switchboard = b.switchboard) (hpool : b'.pool = b.pool) :
    b.Bides b' :=
  ⟨hswitchboard.symm ▸ .refl _, fun hshut => hpool.symm ▸ hshut.fades⟩

theorem bides_post (b : Bridge) (sink : RequestSink) (event : Event) (request : Request) :
    b.Bides (b.post sink event request).1 := by
  unfold post
  have hnext := (idles_nextAnswer b).bides
  generalize b.nextAnswer = r at hnext ⊢
  obtain ⟨answer, b₁⟩ := r
  have hposted : ∀ send : Send, b.Bides (Bridge.count
      { b₁ with sends := b₁.sends ++ [send], requests := b₁.requests ++ [request] }
      (.requestsSent sink.config.sinkId)) := fun _ => hnext.trans (bides_of_eq rfl rfl)
  have hsent := hposted ⟨request, sink.delivery event request.url b₁.limit, answer, none, .new⟩
  dsimp only at hsent ⊢
  generalize Bridge.count _ _ = b₂ at hsent ⊢
  have harrived : ∀ b₃, b₂.Bides b₃ → b.Bides (b₃.arrive b.sends.length).expire := fun b₃ h =>
    (hsent.trans h).trans ((works_arrive ..).trans (idles_expire _).toWorks).bides
  cases answer.hold? with
  | none => exact harrived b₂ (.refl b₂)
  | some gate =>
    dsimp only
    generalize b₂.gates.arrive gate _ = r
    obtain ⟨gates, _ | _⟩ := r
    · exact hsent.trans (bides_of_eq rfl rfl)
    · exact harrived _ (bides_of_eq rfl rfl)

theorem bides_send (b : Bridge) (sink : RequestSink) (event : Event) :
    b.Bides (b.send sink event).1 := by
  unfold send
  split
  · exact .refl b
  · exact bides_post ..

theorem bides_handle (b : Bridge) (element : Element) (event : Event) :
    b.Bides (b.handle element event).1 := by
  unfold handle
  split
  · split
    · exact bides_send ..
    · exact .refl b
  · split
    · exact (idles_respond ..).bides
    · exact .refl b
  · exact .refl b

/-- A request comes in that finds its exchange. -/
def comeIn (b : Bridge) (i : Inbound) (x : Exchange) : Bridge :=
  if x.isOpen then ((b.welcome i).submit (.dispatch b.inbound.length)).expire else b.welcome i

/-- The switchboard and the pool bide, whatever is done, unless a request comes in. -/
theorem Act.bides (h : b.Act b') : b.Bides b' ∨ ∃ i x,
    b.switchboard.exchange? i.exchange = some x ∧ i.id = MessageId.ofNumber b.inbound.length ∧
      b' = b.comeIn i x := by
  cases h with
  | publish p id event =>
    unfold Bridge.publish
    split
    · exact .inl (.refl b)
    · exact .inl (bides_handle ..)
  | handle element event => exact .inl (bides_handle ..)
  | receive exchange m =>
    unfold Bridge.receive
    split
    · exact .inl (.refl b)
    · rename_i x hx
      exact .inr ⟨⟨exchange, _, _, _, _⟩, x, hx, rfl, rfl⟩
  | forward forwarder event => exact .inl (idles_forward ..).bides
  | advance seconds =>
    have hlater : b.Bides { b with now := b.now + seconds } := bides_of_eq rfl rfl
    exact .inl (hlater.trans (idles_expire _).bides)
  | openGate gate =>
    have hpassed := (works_of_gates b (b.gates.release gate 1).1).trans
      (works_foldl works_passed _ (b.gates.release gate 1).2)
    exact .inl (hpassed.trans (idles_expire _).toWorks).bides
  | closePool =>
    have hturned := (works_close b).trans (works_foldl works_turnAway _ b.pool.line)
    exact .inl (hturned.trans (idles_expire _).toWorks).bides
  | prepare answer => exact .inl (idles_prepare ..).bides

/-- A request that comes in is welcome, and what follows is work. -/
theorem works_comeIn (b : Bridge) (i : Inbound) (x : Exchange) :
    (b.welcome i).Works (b.comeIn i x) := by
  unfold comeIn
  split
  · exact (works_submit ..).trans (idles_expire _).toWorks
  · exact .refl _

/-! ## After the end -/

/-- The pool is closed and nobody is parked. -/
structure Still (b : Bridge) : Prop where
  pool : b.pool.Shut
  vacant : b.switchboard.Vacant

/-- A request that comes in is turned away, and is parked no longer. -/
theorem Still.comeIn (h : b.Still) (hsteady : b.Steady) {i : Inbound} {x : Exchange}
    (hx : b.switchboard.exchange? i.exchange = some x)
    (hid : i.id = MessageId.ofNumber b.inbound.length) :
    (b.comeIn i x).switchboard.Vacant := by
  have hnew : x.call? i.id = none := by
    rw [hid, ← b.length_seats]
    exact hsteady.call?_new (Steady.mem_exchangeList hx)
  have hnone : x.parked = [] := h.vacant _ x hx
  unfold Bridge.comeIn
  split
  · rename_i hopen
    have hturned : ((b.welcome i).turnAway (.dispatch b.inbound.length)).switchboard.Vacant := by
      have hi : (b.welcome i).inbound[b.inbound.length]? = some i := List.getElem?_concat_length
      unfold turnAway
      dsimp only
      rw [hi]
      intro m x' hx'
      obtain ⟨y, hy, rfl⟩ := Switchboard.exchange?_modify rfl hx'
      obtain ⟨z, hz, rfl⟩ := Switchboard.exchange?_modify rfl hy
      split
      · rename_i hm
        subst hm
        cases hx.symm.trans hz
        exact Exchange.parked_of_turnedAway hopen hnone hnew _
      · exact h.vacant m z hz
    have hsubmit : (b.welcome i).submit (.dispatch b.inbound.length) =
        (b.welcome i).turnAway (.dispatch b.inbound.length) := by
      unfold submit
      rw [show (b.welcome i).pool.submit _ = _ from h.pool.submit _]
    rw [hsubmit]
    exact hturned.stays (idles_expire _).stays
  · rename_i hclosed
    intro m x' hx'
    obtain ⟨y, hy, rfl⟩ := Switchboard.exchange?_modify rfl hx'
    split
    · rename_i hm
      subst hm
      cases hx.symm.trans hy
      rw [Exchange.parked_receive_of_closed (Bool.eq_false_iff.2 hclosed), hnone]
      simp
    · exact h.vacant m y hy

/-- Where nobody is parked and the pool is closed it stays so, and no job starts. -/
theorem Still.act (h : b.Still) (hsteady : b.Steady) (hact : b.Act b') :
    b'.Still ∧ b.pool.Fades b'.pool := by
  rcases hact.bides with hbides | ⟨i, x, hx, hid, rfl⟩
  · have hfades := hbides.pool h.pool
    exact ⟨⟨hfades.shut, h.vacant.stays hbides.stays⟩, hfades⟩
  · have hfades : b.pool.Fades (b.comeIn i x).pool := (works_comeIn b i x).pool h.pool
    exact ⟨⟨hfades.shut, h.comeIn hsteady hx hid⟩, hfades⟩

/-! ## What is left -/

/-- A job that is running and waits at a gate, which is one in the body that it takes in. -/
def Stuck (b : Bridge) (t : Task) : Prop :=
  t ∈ b.pool.running ∧ ∃ gate, (gate, t) ∈ b.gates.waiting

/-- Nothing is left but jobs that are stuck, and sends that the transport has not answered. -/
structure Quiet (b : Bridge) : Prop where
  responses : b.switchboard.responses.listeners = []
  exchanges : b.switchboard.exchanges.listeners = []
  routes : b.switchboard.routes.routes = []
  /-- Every request that came in is answered, unless its own job is stuck. -/
  inbound : ∀ n < b.inbound.length, (∃ r, b.reply? n = some r) ∨ b.Stuck (.dispatch n)
  /-- Every send has its final state, which its sender sees unless the transport broke down, or
  the transport has not answered it, or its own job is stuck. -/
  sends : ∀ n s, b.sends[n]? = some s →
    (∃ state, state.isTerminal = true ∧ s.handle.outcome? = some state ∧
      (s.handle.poll.seen = state ∨ s.answer.outcome = .crashes)) ∨
    (∃ gate, (gate, .transport n) ∈ b.gates.waiting) ∨ b.Stuck (.deliver n)
  /-- The slots that are taken are those of the jobs that are stuck. -/
  inUse : ∃ jobs : List Task, jobs.Nodup ∧ (∀ t, t ∈ jobs ↔ b.Stuck t) ∧
    b.pool.inUse = jobs.length
  /-- And these are jobs of requests and sends that there are. -/
  jobs : ∀ t, b.Stuck t →
    (∃ n < b.inbound.length, t = .dispatch n) ∨ ∃ n < b.sends.length, t = .deliver n

namespace Custody

theorem mem_atWork : t ∈ b.atWork ↔ (∃ gate, (gate, t) ∈ b.gates.waiting) ∧ t.isJob = true := by
  simp [atWork]

/-- The jobs that wait at gates are the ones that are stuck. -/
theorem stuck_iff (h : b.Custody [] []) : b.Stuck t ↔ t ∈ b.atWork := by
  have hrunning := h.running
  rw [List.append_nil] at hrunning
  refine ⟨fun hstuck => hrunning.mem_iff.1 hstuck.1, fun hmem => ?_⟩
  exact ⟨hrunning.mem_iff.2 hmem, (mem_atWork.1 hmem).1⟩

/-- Whatever is under way while nobody is in line waits at a gate. -/
theorem waiting_of_unsettled (h : b.Custody [] []) (hline : b.pool.line = []) {item : Item}
    (hopen : b.Unsettled item) : ∃ t, t.item = item ∧ ∃ gate, (gate, t) ∈ b.gates.waiting := by
  obtain ⟨t, ht, hpos⟩ := h.kept item hopen
  simp only [pending, hline, List.count_nil, Nat.zero_add, Nat.add_zero, List.count_pos_iff] at hpos
  obtain ⟨⟨gate, t'⟩, hmem, rfl⟩ := List.mem_map.1 hpos
  exact ⟨t', ht, gate, hmem⟩

/-- A request that came in is answered, or its job is stuck, where nobody is parked. -/
theorem answered_or_stuck (h : b.Custody [] []) (htended : b.switchboard.Tended)
    (hvacant : b.switchboard.Vacant) (hline : b.pool.line = []) (hn : n < b.inbound.length) :
    (∃ r, b.reply? n = some r) ∨ b.Stuck (.dispatch n) := by
  obtain ⟨c, hc⟩ := h.steady.called n (b.length_seats ▸ hn)
  obtain ⟨⟨k, id⟩, hseat, hcall⟩ := Option.bind_eq_some_iff.1 hc
  obtain ⟨x, hx, hcall⟩ := Option.bind_eq_some_iff.1 hcall
  have hmem : c ∈ x.calls := List.mem_of_find?_eq_some hcall
  cases h.steady.seated x (Steady.mem_exchangeList hx) c hmem with
  | dispatching hphase =>
    have hopen : b.Unsettled (.inbound n) := ⟨c, hc, hphase⟩
    obtain ⟨t, ht, hwaiting⟩ := h.waiting_of_unsettled hline hopen
    cases t with
    | dispatch m =>
      cases ht
      exact .inr (h.stuck_iff.2 (mem_atWork.2 ⟨hwaiting, rfl⟩))
    | transport m | deliver m => cases ht
  | answered r hphase => exact .inl ⟨r, reply?_of_answered hc hphase⟩
  | waiting t _ hphase =>
    have hparked := (htended.exchange k x hx).attends id c hcall (.inr ⟨_, hphase⟩)
    rw [Exchange.isParked_iff, hvacant k x hx] at hparked
    cases hparked

/-- A send has its final state, or one of its tasks waits at a gate. -/
theorem told_or_waiting (h : b.Custody [] []) (hline : b.pool.line = []) {s : Send}
    (hs : b.sends[n]? = some s) :
    (∃ state, state.isTerminal = true ∧ s.handle.outcome? = some state ∧
      (s.handle.poll.seen = state ∨ s.answer.outcome = .crashes)) ∨
    (∃ gate, (gate, .transport n) ∈ b.gates.waiting) ∨ b.Stuck (.deliver n) := by
  cases h.stands s (List.mem_of_getElem? hs) with
  | new hnew =>
    have hopen : b.Unsettled (.send n) := ⟨s, hs, hnew⟩
    obtain ⟨t, ht, hwaiting⟩ := h.waiting_of_unsettled hline hopen
    cases t with
    | transport m =>
      cases ht
      exact .inr (.inl hwaiting)
    | deliver m =>
      cases ht
      exact .inr (.inr (h.stuck_iff.2 (mem_atWork.2 ⟨hwaiting, rfl⟩)))
    | dispatch m => cases ht
  | told state hfinal htold =>
    refine .inl ⟨state, hfinal, ?_, .inl ?_⟩
    all_goals
      rw [htold]
      rfl
  | lost hcrashes hgone => exact .inl ⟨.failed .aborted, rfl, by rw [hgone]; rfl, .inr hcrashes⟩

/-- No job waits at two gates. -/
theorem nodup_atWork {o : Outgoing} {tally : Tally} (h : b.Custody [] [])
    (hmirrors : b.Mirrors o tally []) : b.atWork.Nodup := by
  refine List.nodup_iff_count_le_one.2 fun t => ?_
  have hle : b.atWork.count t ≤ b.pending [] t := by
    have hcount := (List.filter_sublist (p := Task.isJob)
      (l := b.gates.waiting.map (·.2))).count_le t
    unfold pending atWork
    omega
  cases t with
  | dispatch n => exact Nat.le_trans hle (h.once n)
  | deliver n =>
    have honce := hmirrors.once n
    omega
  | transport n =>
    have hnot : Task.transport n ∉ b.atWork := fun hmem => Bool.noConfusion (mem_atWork.1 hmem).2
    rw [List.count_eq_zero.2 hnot]
    exact Nat.zero_le 1

/-- A job that is stuck is one of a request or a send that there is. -/
theorem exists_of_stuck {o : Outgoing} {tally : Tally} (h : b.Custody [] [])
    (hmirrors : b.Mirrors o tally []) (hstuck : b.Stuck t) :
    (∃ n < b.inbound.length, t = .dispatch n) ∨ ∃ n < b.sends.length, t = .deliver n := by
  obtain ⟨⟨gate, hwaiting⟩, hjob⟩ := mem_atWork.1 (h.stuck_iff.1 hstuck)
  have hpos : 0 < b.pending [] t := by
    have hmem : t ∈ b.gates.waiting.map (·.2) := List.mem_map_of_mem hwaiting
    have hcount := List.count_pos_iff.2 hmem
    unfold pending
    omega
  cases t with
  | dispatch n => exact .inl ⟨n, b.length_seats ▸ h.known n hpos, rfl⟩
  | deliver n => exact .inr ⟨n, hmirrors.send_lt rfl hpos, rfl⟩
  | transport n => cases hjob

end Custody

end Bridge

/-! ## Sites -/

/-- A bridge with its pipelines. -/
structure Site where
  pipelines : List Pipeline
  bridge : Bridge

namespace Site

/-- What may happen at a site. A pipeline that is running is not discarded. -/
inductive Step (w : Site) : Site → Prop
  | build (p : Pipeline) : p.running = false → Step w { w with pipelines := w.pipelines ++ [p] }
  | discard (i : Nat) {p : Pipeline} : w.pipelines[i]? = some p → p.running = false →
      Step w { w with pipelines := w.pipelines.eraseIdx i }
  | start (i : Nat) {p : Pipeline} : w.pipelines[i]? = some p →
      Step w ⟨w.pipelines.set i (w.bridge.start p).2.1, (w.bridge.start p).1⟩
  | shutdown (i : Nat) {p : Pipeline} : w.pipelines[i]? = some p →
      Step w ⟨w.pipelines.set i (w.bridge.shutdown p).2, (w.bridge.shutdown p).1⟩
  | act {b : Bridge} : w.bridge.Act b → Step w { w with bridge := b }

/-- What happens at a site, one thing after another. -/
abbrev Course : Site → Site → Prop := Relation.ReflTransGen Step

variable {w w' : Site}

/-- Whatever happens at a site happens to its bridge. -/
theorem course_bridge (h : w.Course w') : w.bridge.Course w'.bridge := by
  induction h with
  | refl => exact .refl
  | tail _ hstep ih =>
    cases hstep with
    | build | discard => exact ih
    | start i hp => exact ih.tail (.start _)
    | shutdown i hp => exact ih.tail (.shutdown _)
    | act hact => exact ih.tail hact.move

/-- The tables are what the running pipelines hold, exchanges are tended, and nothing is
forgotten. -/
structure Kept (w : Site) : Prop where
  holds : w.bridge.switchboard.Holds (w.pipelines.flatMap Pipeline.held)
  tended : w.bridge.switchboard.Tended
  custody : w.bridge.Custody [] []

theorem kept_new {c : Config} {files : FileTree} {b : Bridge} (h : Bridge.new? c files = some b) :
    Kept ⟨[], b⟩ := by
  refine ⟨?_, ?_, Bridge.Custody.new h⟩
  all_goals
    obtain ⟨pool, -, rfl⟩ := Option.map_eq_some_iff.1 h
  · exact .empty
  · exact Switchboard.tended_empty

/-- A pipeline that is not running holds nothing, and may be discarded. -/
theorem flatMap_eraseIdx {ps : List Pipeline} {i : Nat} {p : Pipeline} (hp : ps[i]? = some p)
    (hidle : p.running = false) :
    (ps.eraseIdx i).flatMap Pipeline.held = ps.flatMap Pipeline.held := by
  induction ps generalizing i with
  | nil => cases hp
  | cons q ps ih =>
    cases i with
    | zero =>
      cases hp
      simp [Service.held_eq_nil hidle]
    | succ i => simpa using ih hp

theorem Kept.act (h : w.Kept) {b : Bridge} (hact : w.bridge.Act b) :
    Kept { w with bridge := b } := by
  have hcustody := h.custody.act hact
  rcases hact.bides with hbides | ⟨i, x, hx, hid, rfl⟩
  · exact ⟨h.holds.stays hbides.stays, h.tended.stays hbides.stays, hcustody⟩
  · have hworks := Bridge.works_comeIn w.bridge i x
    refine ⟨(h.holds.receive ..).stays hworks.stays, (h.tended.receive _ ?_).stays hworks.stays,
      hcustody⟩
    intro y hy
    rw [hid, ← w.bridge.length_seats]
    exact h.custody.steady.call?_new (Bridge.Steady.mem_exchangeList hy)

/-- Pipelines that come and go forget nothing. -/
theorem Kept.turns (h : w.Kept) {pipelines : List Pipeline} {s : Switchboard}
    (hholds : s.Holds (pipelines.flatMap Pipeline.held)) (hturns : w.bridge.switchboard.Turns s)
    (hgoes : w.bridge.switchboard.Goes none s) :
    Kept ⟨pipelines, { w.bridge with switchboard := s }⟩ := by
  have hfares : w.bridge.Fares { w.bridge with switchboard := s } :=
    ⟨⟨rfl, rfl, rfl, hgoes.mono⟩, fun _ s hs => ⟨s, hs, .refl s⟩, Pool.Shut.fades⟩
  exact ⟨hholds, h.tended.turns hturns, h.custody.moves hfares h.custody.pool h.custody.line
    h.custody.running fun _ => rfl⟩

theorem Kept.step (h : w.Kept) (hstep : w.Step w') : w'.Kept := by
  cases hstep with
  | build p hp =>
    refine { h with holds := ?_ }
    rw [List.flatMap_append]
    simpa [Service.held_eq_nil hp] using h.holds
  | discard i hp hidle => exact { h with holds := (flatMap_eraseIdx hp hidle).symm ▸ h.holds }
  | @start i p hp =>
    obtain ⟨others, hall, hset⟩ := Plant.exists_others hp
    exact h.turns ((p.holds_start (h.holds.perm hall)).perm (hset _).symm) (p.turns_start _)
      (p.goes_start _)
  | @shutdown i p hp =>
    obtain ⟨others, hall, hset⟩ := Plant.exists_others hp
    exact h.turns ((p.holds_shutdown (h.holds.perm hall)).perm (hset _).symm) (p.turns_shutdown _)
      (p.goes_shutdown _)
  | act hact => exact h.act hact

theorem Kept.course (h : w.Kept) (hcourse : w.Course w') : w'.Kept := by
  induction hcourse with
  | refl => exact h
  | tail _ hstep ih => exact ih.step hstep

/-- Where nobody is parked and the pool is closed it stays so, and no job starts. -/
theorem Kept.still_step (h : w.Kept) (hstill : w.bridge.Still) (hstep : w.Step w') :
    w'.bridge.Still ∧ w.bridge.pool.Fades w'.bridge.pool := by
  cases hstep with
  | build | discard => exact ⟨hstill, hstill.pool.fades⟩
  | @start i p hp =>
    exact ⟨⟨hstill.pool, hstill.vacant.turns (p.turns_start _)⟩, hstill.pool.fades⟩
  | @shutdown i p hp =>
    exact ⟨⟨hstill.pool, hstill.vacant.turns (p.turns_shutdown _)⟩, hstill.pool.fades⟩
  | act hact => exact hstill.act h.custody.steady hact

theorem Kept.still_course (h : w.Kept) (hstill : w.bridge.Still) (hcourse : w.Course w') :
    w'.Kept ∧ w'.bridge.Still := by
  induction hcourse with
  | refl => exact ⟨h, hstill⟩
  | tail _ hstep ih => exact ⟨ih.1.step hstep, (ih.1.still_step ih.2 hstep).1⟩

/-- Where no pipeline is running and the pool is closed nobody is parked, and nothing is left but
jobs that are stuck and sends that the transport has not answered. -/
theorem Kept.quiet {o : Outgoing} {tally : Tally} (h : w.Kept)
    (hmirrors : w.bridge.Mirrors o tally [])
    (hstopped : ∀ p ∈ w.pipelines, p.running = false) (hclosed : w.bridge.pool.isOpen = false) :
    w.bridge.Quiet ∧ w.bridge.Still := by
  have hnone : w.pipelines.flatMap Pipeline.held = [] :=
    List.flatMap_eq_nil_iff.2 fun p hp => Service.held_eq_nil (hstopped p hp)
  obtain ⟨hresponses, hexchanges, hroutes⟩ := Service.tables_eq_nil (hnone ▸ h.holds)
  obtain ⟨hvacant, -⟩ := h.tended.vacant hexchanges
  have hline := h.custody.pool.closed hclosed
  refine ⟨{
    responses := hresponses
    exchanges := hexchanges
    routes := hroutes
    inbound := fun n hn => h.custody.answered_or_stuck h.tended hvacant hline hn
    sends := fun n s hs => h.custody.told_or_waiting hline hs
    inUse := ⟨_, h.custody.nodup_atWork hmirrors, fun t => h.custody.stuck_iff.symm, ?_⟩
    jobs := fun t hstuck => h.custody.exists_of_stuck hmirrors hstuck }, ⟨hclosed, hline⟩, hvacant⟩
  have hlength := h.custody.running.length_eq
  rwa [List.append_nil] at hlength

/-- **Nothing is left when a bridge was shut down but what waits for others.** Pipelines are built,
started, stopped and discarded, and requests come in and go out; no pipeline is discarded while it
is running. Once no pipeline is running and the pool is closed, in whatever order that came about,
the tables are empty. Every request that came in is answered, unless its own job is running and
waits in the middle of its body. Every send has its final state, unless the transport has not
answered it or its own job is running and waits in the middle of its body. These jobs take the
slots that are taken. From then on, whatever happens, the pool is closed and nobody is in line for
it, nobody is parked, and no job starts. -/
theorem quiet_of_course {c : Config} {files : FileTree} {b₀ : Bridge}
    (hnew : Bridge.new? c files = some b₀) (hcourse : Course ⟨[], b₀⟩ w)
    (hstopped : ∀ p ∈ w.pipelines, p.running = false) (hclosed : w.bridge.pool.isOpen = false) :
    w.bridge.Quiet ∧ ∀ w', w.Course w' → w'.bridge.Still ∧
      ∀ w'', w'.Step w'' → w'.bridge.pool.Fades w''.bridge.pool := by
  have hkept := (kept_new hnew).course hcourse
  obtain ⟨o, tally, -, -, hmirrors⟩ :=
    Bridge.exists_mirrors_of_course hnew (course_bridge hcourse)
  obtain ⟨hquiet, hstill⟩ := hkept.quiet hmirrors hstopped hclosed
  refine ⟨hquiet, fun w' hcourse' => ?_⟩
  obtain ⟨hkept', hstill'⟩ := hkept.still_course hstill hcourse'
  exact ⟨hstill', fun w'' hstep => (hkept'.still_step hstill' hstep).2⟩

/-- A site that is shut down while the bodies of a request and of a response are held up; another
request waits for its reply. -/
def evening (b₀ : Bridge) : Site :=
  let (b, p, _) := b₀.start Bridge.stall
  let b := (b.receive 0 Bridge.heldUp).receive 0 Bridge.complete
  let b := b.prepare ⟨none, .response (some 200) [] [.gate "dock"]⟩
  let b := (b.handle ⟨.requestSink Outgoing.orders, true⟩ Outgoing.order).1
  let (b, p) := b.shutdown p
  ⟨[p], b.closePool⟩

theorem course_evening (b₀ : Bridge) : Course ⟨[], b₀⟩ (evening b₀) :=
  (((((((Relation.ReflTransGen.single (.build Bridge.stall rfl)).tail
    (.start 0 rfl)).tail (.act (.receive 0 Bridge.heldUp))).tail
    (.act (.receive 0 Bridge.complete))).tail (.act (.prepare _))).tail
    (.act (.handle ⟨.requestSink Outgoing.orders, true⟩ Outgoing.order))).tail
    (.shutdown 0 rfl)).tail (.act .closePool)

/-- Two jobs are left. The request that waited for its reply is answered that the source was
stopped. -/
theorem quiet_of_course_evening :
    ∃ b₀, Bridge.new? {} .empty = some b₀ ∧ Course ⟨[], b₀⟩ (evening b₀) ∧
      (∀ p ∈ (evening b₀).pipelines, p.running = false) ∧
      (evening b₀).bridge.pool.isOpen = false ∧ (evening b₀).bridge.Quiet ∧
      (evening b₀).bridge.Still ∧ (evening b₀).bridge.pool.inUse = 2 ∧
      (evening b₀).bridge.Stuck (.dispatch 0) ∧ (evening b₀).bridge.Stuck (.deliver 0) ∧
      (evening b₀).bridge.reply? 1 = some .sourceStopped := by
  have hend : (Bridge.new? {} .empty).map (fun b₀ =>
      let w := evening b₀
      (w.bridge.pool.isOpen, w.bridge.pool.running, w.bridge.gates.waiting,
        w.bridge.reply? 1)) =
      some (false, [.dispatch 0, .deliver 0], [("door", .dispatch 0), ("dock", .deliver 0)],
        some .sourceStopped) := by decide +kernel
  obtain ⟨b₀, hnew, hend⟩ := Option.map_eq_some_iff.1 hend
  simp only [Prod.mk.injEq] at hend
  obtain ⟨hclosed, hrunning, hwaiting, hreply⟩ := hend
  have hstopped : ∀ p ∈ (evening b₀).pipelines, p.running = false :=
    fun p hp => List.mem_singleton.1 hp ▸ Pipeline.running_shutdown ..
  obtain ⟨hquiet, hlater⟩ := quiet_of_course hnew (course_evening b₀) hstopped hclosed
  refine ⟨b₀, hnew, course_evening b₀, hstopped, hclosed, hquiet, (hlater _ .refl).1, ?_, ?_, ?_,
    hreply⟩
  · simp [Pool.inUse, hrunning]
  · exact ⟨by simp [hrunning], "door", by simp [hwaiting]⟩
  · exact ⟨by simp [hrunning], "dock", by simp [hwaiting]⟩

end Site

end Correlator
