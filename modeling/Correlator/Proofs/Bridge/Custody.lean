import Correlator.Proofs.Bridge.Work

/-!
# What becomes of whatever is under way

Whatever is under way at a bridge has a task that is on hand, at a gate or in line, and the slots of
the pool are taken by the jobs that wait at gates, and by those on hand. So nothing is forgotten:
what is still unsettled when nothing goes on waits somewhere.

* `Bridge.atWork`: the jobs that wait at gates.
* `Bridge.Custody`: what holds of a bridge while some tasks are on hand, some of which hold a slot.
* `Bridge.Custody.moves`: tasks go from one place to another; `Bridge.Custody.settle`,
  `Bridge.Custody.hold`, `Bridge.Custody.release`: a job ends, is held up, or gives its slot away.
* `Bridge.Custody.runFrom`, `Bridge.Custody.submit`, `Bridge.Custody.passed`: jobs one after
  another.
* `Bridge.Act`: what may be done with a bridge whose pipelines stay as they are;
  **`Bridge.Custody.act`**: nothing is forgotten, whatever is done.

A transport holds no slot. So the tasks that hold one are given apart from those on hand.
-/

namespace Correlator

/-- At an exchange that is closed a call that comes does not wait for a job. -/
theorem Exchange.phase_ne_of_receive {x : Exchange} {id : String} {c : Call}
    (hclosed : x.isOpen = false) (hc : (x.receive id).call? id = some c) :
    c.phase ≠ .dispatching := by
  unfold receive checkOpen at hc
  rw [if_neg (show ¬(x.park id).isOpen = true by simp [park, hclosed]), call?_conclude,
    if_pos rfl] at hc
  obtain ⟨c₀, -, rfl⟩ := Option.map_eq_some_iff.1 hc
  simp

namespace Bridge

variable {b b' : Bridge} {held held' hands hands' tasks : List Task} {n : Nat} {t : Task}

/-- The jobs that wait at gates. -/
def atWork (b : Bridge) : List Task := (b.gates.waiting.map (·.2)).filter Task.isJob

/-- What holds of a bridge while some tasks are on hand, some of which hold a slot. -/
structure Custody (b : Bridge) (held hands : List Task) : Prop where
  steady : b.Steady
  pool : b.pool.Orderly
  line : ∀ t ∈ b.pool.line, t.isJob = true
  running : b.pool.running.Perm (b.atWork ++ held)
  stands : ∀ s ∈ b.sends, s.Stands
  /-- Whatever is under way has a task somewhere. -/
  kept : ∀ item, b.Unsettled item → ∃ t, t.item = item ∧ 0 < b.pending hands t
  once : ∀ n, b.pending hands (.dispatch n) ≤ 1
  known : ∀ n, 0 < b.pending hands (.dispatch n) → n < b.seats.length

namespace Custody

/-- Before anything has happened nothing is under way. -/
theorem new {config : Config} {files : FileTree} (h : new? config files = some b) :
    b.Custody [] [] := by
  have hsteady := (steady_new h).1
  obtain ⟨pool, hpool, rfl⟩ := Option.map_eq_some_iff.1 h
  unfold Pool.new? at hpool
  split at hpool
  · cases hpool
    refine ⟨hsteady, Pool.orderly_idle _, nofun, .nil, by simp, fun item hopen => ?_, ?_, ?_⟩
    · cases item with
      | send n =>
        obtain ⟨s, hs, -⟩ := hopen
        cases hs
      | inbound n =>
        obtain ⟨c, hc, -⟩ := hopen
        cases hc
    · simp [pending, Gates.empty, Pool.idle]
    · simp [pending, Gates.empty, Pool.idle]
  · cases hpool

/-- Tasks may be taken up or laid down, as long as none is forgotten that is to be done. -/
theorem fares (h : b.Custody held hands) (hfares : b.Fares b') (hpool : b'.pool.Orderly)
    (hline : ∀ t ∈ b'.pool.line, t.isJob = true)
    (hrunning : b'.pool.running.Perm (b'.atWork ++ held'))
    (hle : ∀ n, b'.pending hands' (.dispatch n) ≤ b.pending hands (.dispatch n))
    (hkept : ∀ t, b'.Unsettled t.item → 0 < b.pending hands t → 0 < b'.pending hands' t) :
    b'.Custody held' hands' where
  steady := h.steady.runs hfares.runs
  pool := hpool
  line := hline
  running := hrunning
  stands s' hs' := by
    obtain ⟨n, hn⟩ := List.getElem?_of_mem hs'
    obtain ⟨s, hs, hfares⟩ := hfares.sends n s' hn
    exact hfares.stands (h.stands s (List.mem_of_getElem? hs))
  kept item hopen := by
    obtain ⟨t, rfl, hpos⟩ := h.kept item (hfares.unsettled h.steady hopen)
    exact ⟨t, rfl, hkept t hopen hpos⟩
  once n := Nat.le_trans (hle n) (h.once n)
  known n hpos := by
    rw [hfares.runs.seats]
    exact h.known n (Nat.lt_of_lt_of_le hpos (hle n))

/-- Tasks go from one place to another. -/
theorem moves (h : b.Custody held hands) (hfares : b.Fares b') (hpool : b'.pool.Orderly)
    (hline : ∀ t ∈ b'.pool.line, t.isJob = true)
    (hrunning : b'.pool.running.Perm (b'.atWork ++ held'))
    (hsame : ∀ t, b'.pending hands' t = b.pending hands t) : b'.Custody held' hands' :=
  h.fares hfares hpool hline hrunning (fun _ => Nat.le_of_eq (hsame _)) fun t _ hpos =>
    (hsame t).symm ▸ hpos

/-- Work that leaves all tasks where they are. -/
theorem idles (h : b.Custody held hands) (hidles : b.Idles b') : b'.Custody held hands := by
  have hsame : ∀ t, b'.pending hands t = b.pending hands t := fun t => by
    unfold pending
    rw [hidles.gates, hidles.jobs]
  refine h.moves hidles.toFares (hidles.jobs ▸ h.pool) (hidles.jobs ▸ h.line) ?_ hsame
  unfold atWork
  rw [hidles.jobs, hidles.gates]
  exact h.running

/-- A task on hand is done with, and its request is settled. -/
theorem settle (h : b.Custody held (t :: hands)) (hran : b.Ran b' t true) :
    b'.Custody held hands := by
  have hsame : ∀ t', b'.pending hands t' = b.pending hands t' := fun t' => by
    unfold pending
    rw [hran.waiting rfl, hran.pool]
  refine h.fares hran.works.toFares (hran.pool ▸ h.pool) (hran.pool ▸ h.line) ?_ (fun n => ?_)
    fun t' hopen hpos => ?_
  · unfold atWork
    rw [hran.pool, hran.waiting rfl]
    exact h.running
  · rw [hsame, pending_cons]
    omega
  · rw [hsame]
    have hne : t ≠ t' := by
      rintro rfl
      exact hran.settled rfl hopen
    rwa [pending_cons, if_neg hne] at hpos

/-- A job on hand is held up at a gate, and keeps its slot. -/
theorem hold (h : b.Custody (t :: held) (t :: hands)) (ht : t.isJob = true)
    (hran : b.Ran b' t false) : b'.Custody held hands := by
  obtain ⟨gate, hwaiting⟩ := hran.held rfl
  have hsame : ∀ t', b'.pending hands t' = b.pending (t :: hands) t' := fun t' => by
    unfold pending
    rw [hwaiting, hran.pool]
    simp only [List.map_append, List.map_cons, List.map_nil, List.count_append, List.count_cons,
      List.count_nil]
    omega
  refine h.moves hran.works.toFares (hran.pool ▸ h.pool) (hran.pool ▸ h.line) ?_ hsame
  have hwork : b'.atWork = b.atWork ++ [t] := by
    unfold atWork
    rw [hwaiting]
    simp [ht]
  rw [hran.pool, hwork, List.append_assoc]
  exact h.running

/-- The slot of a job that has ended stays free, or the next job in line gets it. -/
theorem release (h : b.Custody (t :: held) hands) :
    match (b.release t).2 with
    | none => (b.release t).1.Custody held hands
    | some next => (b.release t).1.Custody (next :: held) (next :: hands) ∧ next.isJob = true ∧
        (b.release t).1.pool.line.length < b.pool.line.length := by
  have hmem : t ∈ b.pool.running := h.running.mem_iff.2 (by simp)
  have hhandover := h.pool.handover hmem
  have hpool := h.pool.release hmem
  have hfares := (works_release b t).toFares
  have hrunning : (b.pool.running.erase t).Perm (b.atWork ++ held) :=
    (((List.perm_cons_erase hmem).symm.trans h.running).trans List.perm_middle).cons_inv
  have hline := h.line
  unfold Bridge.release at hfares ⊢
  generalize b.pool.release t = r at hhandover hpool hfares ⊢
  cases hhandover with
  | free _ =>
    exact h.moves hfares hpool hline hrunning fun _ => rfl
  | @next next line hnext =>
    rw [hnext] at hline
    obtain ⟨hjob, hline⟩ := List.forall_mem_cons.1 hline
    have hsame : ∀ t', Bridge.pending (gauge { b with pool := { b.pool with
        running := b.pool.running.erase t ++ [next], line } }) (next :: hands) t' =
        b.pending hands t' := fun t' => by
      simp only [pending, gauge, hnext, List.count_cons]
      omega
    refine ⟨h.moves hfares hpool hline ?_ hsame, hjob, ?_⟩
    · refine (hrunning.append_right [next]).trans ?_
      rw [List.append_assoc]
      exact (List.perm_append_singleton next held).append_left _
    · simp [gauge, hnext]

/-- A job goes on, and after it those in line that come to its slot. -/
theorem runFrom {fuel : Nat} (h : b.Custody (t :: held) (t :: hands)) (ht : t.isJob = true)
    (hfuel : b.pool.line.length < fuel) : (b.runFrom t fuel).Custody held hands := by
  induction fuel generalizing b t with
  | zero => exact absurd hfuel (Nat.not_lt_zero _)
  | succ fuel ih =>
    have hran := b.ran_runJob ht
    unfold Bridge.runFrom
    generalize b.runJob t = r at hran ⊢
    obtain ⟨b₁, _ | _⟩ := r
    · exact h.hold ht hran
    · have hrelease := (h.settle hran).release
      have hpool : b₁.pool = b.pool := hran.pool
      dsimp only
      generalize b₁.release t = r at hrelease ⊢
      obtain ⟨b₂, _ | next⟩ := r
      · exact hrelease
      · obtain ⟨hnext, hjob, hlt⟩ := hrelease
        refine ih hnext hjob ?_
        rw [hpool] at hlt
        exact Nat.lt_of_lt_of_le hlt (Nat.le_of_lt_succ hfuel)

theorem run (h : b.Custody (t :: held) (t :: hands)) (ht : t.isJob = true) :
    (b.run t).Custody held hands := h.runFrom ht (Nat.lt_succ_self _)

/-- A job is given to the pool. -/
theorem submit (h : b.Custody held (t :: hands)) (ht : t.isJob = true) :
    (b.submit t).Custody held hands := by
  have hsubmission := h.pool.submission t
  have hpool := h.pool.submit t
  unfold Bridge.submit
  generalize b.pool.submit t = r at hsubmission hpool ⊢
  cases hsubmission with
  | refused _ => exact h.settle (b.ran_turnAway ht)
  | started hopen _ _ =>
    refine run ?_ ht
    have hworks := (works_of_isOpen { b.pool with running := b.pool.running ++ [t] } hopen).trans
      (idles_gauge _).toWorks
    refine h.moves hworks.toFares hpool h.line ?_ fun _ => rfl
    refine (h.running.append_right [t]).trans ?_
    rw [List.append_assoc]
    exact (List.perm_append_singleton t held).append_left _
  | queued hopen _ =>
    have hsame : ∀ t', Bridge.pending { b with pool := { b.pool with line := b.pool.line ++ [t] } }
        hands t' = b.pending (t :: hands) t' := fun t' => by
      simp only [pending, List.count_append, List.count_cons, List.count_nil]
      omega
    refine h.moves (works_of_isOpen _ hopen).toFares hpool ?_ h.running hsame
    intro t' ht'
    rcases List.mem_append.1 ht' with hmem | hmem
    · exact h.line t' hmem
    · cases List.mem_singleton.1 hmem
      exact ht

/-- Once its answer has arrived, it is the delivery of a send that is on hand. -/
theorem deliver (h : b.Custody held (.transport n :: hands)) :
    b.Custody held (.deliver n :: hands) := by
  refine { h with kept := fun item hopen => ?_, once := fun m => ?_, known := fun m hpos => ?_ }
  · obtain ⟨t, rfl, hpos⟩ := h.kept item hopen
    by_cases ht : Task.transport n = t
    · subst ht
      exact ⟨.deliver n, rfl, by simp [pending_cons]⟩
    · refine ⟨t, rfl, ?_⟩
      rw [pending_cons, if_neg ht] at hpos
      rw [pending_cons]
      omega
  · have honce := h.once m
    rwa [pending_cons, if_neg nofun] at honce ⊢
  · refine h.known m ?_
    rwa [pending_cons, if_neg nofun] at hpos ⊢

/-- The answer to a send arrives. -/
theorem arrive (h : b.Custody held (.transport n :: hands)) :
    (b.arrive n).Custody held hands := by
  unfold Bridge.arrive
  cases hs : b.sends[n]? with
  | none => exact h.settle (ran_ended (.refl b) rfl rfl (not_unsettled_send hs))
  | some s =>
    dsimp only
    split
    · rename_i hcrashes
      exact h.settle (ran_abandon hs hcrashes)
    · exact h.deliver.submit rfl

/-- A task goes on that was let through a gate; if it is a job, it holds a slot. -/
theorem passed (h : b.Custody ((t :: tasks).filter Task.isJob) (t :: tasks)) :
    (b.passed t).Custody (tasks.filter Task.isJob) tasks := by
  cases t with
  | transport n => exact h.arrive
  | deliver n => exact h.run rfl
  | dispatch n => exact h.run rfl

theorem foldl_passed (h : b.Custody (tasks.filter Task.isJob) tasks) :
    (tasks.foldl Bridge.passed b).Custody [] [] := by
  induction tasks generalizing b with
  | nil => exact h
  | cons t tasks ih => exact ih h.passed

theorem foldl_turnAway (h : b.Custody held tasks) (ht : ∀ t ∈ tasks, t.isJob = true) :
    (tasks.foldl Bridge.turnAway b).Custody held [] := by
  induction tasks generalizing b with
  | nil => exact h
  | cons t tasks ih =>
    obtain ⟨ht, hrest⟩ := List.forall_mem_cons.1 ht
    exact ih (h.settle (b.ran_turnAway ht)) hrest

theorem expire (h : b.Custody held hands) : b.expire.Custody held hands :=
  h.idles (idles_expire b)

/-! ## Requests that come in -/

/-- A request that comes to an open exchange is about to be dispatched; at a closed one it is turned
down. -/
theorem welcome (h : b.Custody held hands) {i : Inbound} {x : Exchange}
    (hx : b.switchboard.exchange? i.exchange = some x)
    (hid : i.id = MessageId.ofNumber b.inbound.length) :
    (b.welcome i).Custody held
      (if x.isOpen then .dispatch b.inbound.length :: hands else hands) := by
  have hopens : b.Opens (b.welcome i) := .welcome i hx hid
  rw [← b.length_seats] at hid ⊢
  have hnew : b.pending hands (.dispatch b.seats.length) = 0 := by
    have hknown := h.known b.seats.length
    omega
  have hseats : (b.welcome i).seats.length = b.seats.length + 1 := by
    rw [seats_welcome, List.length_append, List.length_singleton]
  have hmore : ∀ t, (b.welcome i).pending
      (if x.isOpen then .dispatch b.seats.length :: hands else hands) t =
      b.pending hands t + if x.isOpen ∧ .dispatch b.seats.length = t then 1 else 0 := fun t => by
    show b.pending _ t = _
    cases x.isOpen with
    | true => simpa using b.pending_cons (.dispatch b.seats.length) hands t
    | false => simp
  refine ⟨h.steady.opens hopens, h.pool, h.line, h.running, h.stands, fun item hopen => ?_,
    fun n => ?_, fun n hpos => ?_⟩
  · have hold : b.Unsettled item → ∃ t, t.item = item ∧ 0 < (b.welcome i).pending
        (if x.isOpen then .dispatch b.seats.length :: hands else hands) t := fun hopen => by
      obtain ⟨t, ht, hpos⟩ := h.kept item hopen
      refine ⟨t, ht, ?_⟩
      rw [hmore]
      omega
    cases item with
    | send n => exact hold hopen
    | inbound n =>
      obtain ⟨c, hc, hphase⟩ := hopen
      obtain ⟨⟨k, id⟩, hseat, hc'⟩ := Option.bind_eq_some_iff.1 hc
      have hlt := (List.getElem?_eq_some_iff.1 hseat).1
      rw [hseats] at hlt
      rcases Nat.lt_succ_iff_lt_or_eq.1 hlt with hlt | rfl
      · obtain ⟨c₀, hc₀⟩ := h.steady.called n hlt
        cases (h.steady.call?_opens hopens hc₀).symm.trans hc
        exact hold ⟨c, hc₀, hphase⟩
      · refine ⟨.dispatch b.seats.length, rfl, ?_⟩
        rw [seats_welcome, List.getElem?_concat_length] at hseat
        cases hseat
        obtain ⟨x', hx', hcall⟩ := Option.bind_eq_some_iff.1 hc'
        obtain ⟨y, hy, rfl⟩ := Switchboard.exchange?_modify rfl hx'
        cases hx.symm.trans hy
        rw [if_pos rfl] at hcall
        have hisOpen : x.isOpen = true := by
          by_contra hclosed
          exact Exchange.phase_ne_of_receive (Bool.eq_false_iff.2 hclosed) hcall hphase
        rw [hmore, if_pos ⟨hisOpen, rfl⟩]
        exact Nat.succ_pos _
  · rw [hmore]
    have honce := h.once n
    by_cases hn : b.seats.length = n
    · subst hn
      rw [hnew]
      split <;> simp
    · simpa [hn] using honce
  · rw [hmore] at hpos
    rw [hseats]
    by_cases hn : b.seats.length = n
    · omega
    · have hknown := h.known n
      simp only [Task.dispatch.injEq, hn, and_false, if_false] at hpos
      exact Nat.lt_succ_of_lt (hknown hpos)

theorem receive (h : b.Custody held hands) (exchange : Nat) (m : Message) :
    (b.receive exchange m).Custody held hands := by
  unfold Bridge.receive
  split
  · exact h
  · rename_i x hx
    have hwelcome := h.welcome (i := ⟨exchange, MessageId.ofNumber b.inbound.length,
      ⟨x.attributes, Metadata.empty.insert Metadata.messageIdName
        (.str (MessageId.ofNumber b.inbound.length)), m.endpoint, m.headers⟩,
      .collecting b.limit, m.body⟩) hx rfl
    dsimp only
    split
    · rename_i hopen
      rw [if_pos hopen] at hwelcome
      exact (hwelcome.submit rfl).expire
    · rename_i hclosed
      rw [if_neg hclosed] at hwelcome
      exact hwelcome

/-! ## Requests that go out -/

/-- A request that goes out is given to the transport. -/
theorem post (h : b.Custody held hands) {s : Send} (hs : s.handle = .new) (request : Request) :
    Custody { b with sends := b.sends ++ [s], requests := b.requests ++ [request] } held
      (.transport b.sends.length :: hands) := by
  have hmore : ∀ t, Bridge.pending { b with
      sends := b.sends ++ [s], requests := b.requests ++ [request] }
      (.transport b.sends.length :: hands) t =
        b.pending hands t + if .transport b.sends.length = t then 1 else 0 :=
    b.pending_cons (.transport b.sends.length) hands
  refine ⟨h.steady.runs ⟨rfl, rfl, rfl, .refl _⟩, h.pool, h.line, h.running, ?_,
    fun item hopen => ?_, fun n => ?_, fun n hpos => ?_⟩
  · intro r hr
    rcases List.mem_append.1 hr with hr | hr
    · exact h.stands r hr
    · cases List.mem_singleton.1 hr
      exact .new hs
  · have hold : b.Unsettled item → ∃ t, t.item = item ∧ 0 < Bridge.pending { b with
        sends := b.sends ++ [s], requests := b.requests ++ [request] }
        (.transport b.sends.length :: hands) t := fun hopen => by
      obtain ⟨t, ht, hpos⟩ := h.kept item hopen
      refine ⟨t, ht, ?_⟩
      rw [hmore]
      omega
    cases item with
    | inbound n => exact hold hopen
    | send n =>
      obtain ⟨r, hr, hnew⟩ := hopen
      rcases Nat.lt_or_ge n b.sends.length with hlt | hge
      · rw [List.getElem?_append_left hlt] at hr
        exact hold ⟨r, hr, hnew⟩
      · have hlast := (List.getElem?_eq_some_iff.1 hr).1
        rw [List.length_append, List.length_singleton] at hlast
        have hn : n = b.sends.length := by omega
        subst hn
        exact ⟨.transport b.sends.length, rfl, by rw [hmore]; simp⟩
  · rw [hmore, if_neg nofun]
    exact h.once n
  · rw [hmore, if_neg nofun] at hpos
    exact h.known n hpos

/-- A transport comes to a gate, and waits there unless it goes right through. -/
theorem atGate (h : b.Custody held (.transport n :: hands)) (gate : String) :
    Custody { b with gates := (b.gates.arrive gate (.transport n)).1 } held
      (if (b.gates.arrive gate (.transport n)).2 then .transport n :: hands else hands) := by
  have hwaiting := b.gates.waiting_arrive gate (.transport n)
  generalize b.gates.arrive gate (.transport n) = r at hwaiting ⊢
  obtain ⟨gates, through⟩ := r
  dsimp only at hwaiting ⊢
  have hwork : Bridge.atWork { b with gates } = b.atWork := by
    unfold atWork
    rw [hwaiting]
    cases through <;> simp [Task.isJob]
  have hsame : ∀ t, Bridge.pending { b with gates }
      (if through then .transport n :: hands else hands) t =
        b.pending (.transport n :: hands) t := fun t => by
    unfold pending
    rw [hwaiting]
    cases through with
    | true => rfl
    | false =>
      simp only [Bool.false_eq_true, if_false, List.map_append, List.map_cons, List.map_nil,
        List.count_append, List.count_cons, List.count_nil]
      omega
  exact h.moves (works_of_gates b gates).toFares h.pool h.line (hwork.symm ▸ h.running) hsame

/-- An event is sent as a request, whose answer arrives at once or is held up at a gate. -/
theorem send (h : b.Custody held hands) (sink : RequestSink) (event : Event) :
    (b.send sink event).1.Custody held hands := by
  unfold Bridge.send Bridge.post
  cases sink.request event with
  | error fault => exact h
  | ok request =>
    have hnext := h.idles (idles_nextAnswer b)
    dsimp only
    have hsends : b.nextAnswer.2.sends = b.sends := (spares_nextAnswer b).sends
    generalize b.nextAnswer = r at hnext hsends ⊢
    obtain ⟨answer, b₁⟩ := r
    dsimp only at hsends ⊢
    have hpost := hnext.post
      (s := ⟨request, sink.delivery event request.url b₁.limit, answer, none, .new⟩) rfl request
    have hsent := hpost.idles (idles_count _ (.requestsSent sink.config.sinkId))
    dsimp only at hsent ⊢
    rw [← hsends]
    generalize Bridge.count _ _ = b₂ at hsent ⊢
    cases answer.hold? with
    | none => exact hsent.arrive.expire
    | some gate =>
      dsimp only
      have hgate := hsent.atGate gate
      generalize b₂.gates.arrive gate _ = r at hgate ⊢
      obtain ⟨gates, through⟩ := r
      cases through with
      | true => exact hgate.arrive.expire
      | false => exact hgate

theorem handle (h : b.Custody held hands) (element : Element) (event : Event) :
    (b.handle element event).1.Custody held hands := by
  unfold Bridge.handle
  split
  · split
    · exact h.send ..
    · exact h
  · split
    · exact h.idles (idles_respond ..)
    · exact h
  · exact h

/-! ## Gates and the pool -/

/-- A pass for a gate lets a task go on. -/
theorem openGate (h : b.Custody [] []) (gate : String) : (b.openGate gate).Custody [] [] := by
  have hperm := (b.gates.perm_release gate 1).map (·.2)
  unfold Bridge.openGate
  generalize b.gates.release gate 1 = r at hperm ⊢
  obtain ⟨gates, through⟩ := r
  simp only [List.map_append, List.map_map, Function.comp_def, List.map_id'] at hperm
  have hsame : ∀ t, Bridge.pending { b with gates } through t = b.pending [] t := fun t => by
    have hcount := hperm.count_eq t
    rw [List.count_append] at hcount
    simp only [pending, List.count_nil]
    omega
  refine (foldl_passed (h.moves (works_of_gates b gates).toFares h.pool h.line ?_ hsame)).expire
  have hwork := (hperm.filter Task.isJob).symm
  rw [List.filter_append] at hwork
  have hrunning := h.running
  rw [List.append_nil] at hrunning
  exact (hrunning.trans hwork).trans List.perm_append_comm

/-- The jobs in line are turned away when the pool is closed. -/
theorem closePool (h : b.Custody [] []) : b.closePool.Custody [] [] := by
  have hsame : ∀ t, Bridge.pending { b with pool := b.pool.close.1 } b.pool.line t =
      b.pending [] t := fun t => by
    simp only [pending, Pool.close, List.count_nil]
    omega
  have hline : ∀ t ∈ b.pool.close.1.line, t.isJob = true := List.forall_mem_nil _
  exact (foldl_turnAway (h.moves (works_close b).toFares h.pool.close hline h.running hsame)
    h.line).expire

end Custody

/-! ## Acts -/

/-- What may be done with a bridge while its pipelines stay as they are. -/
inductive Act (b : Bridge) : Bridge → Prop
  | publish (p : Pipeline) (id : String) (event : Event) : Act b (b.publish p id event).1
  | handle (element : Element) (event : Event) : Act b (b.handle element event).1
  | receive (exchange : Nat) (m : Message) : Act b (b.receive exchange m)
  | forward (forwarder : Nat) (event : Event) : Act b (b.forward forwarder event).1
  | advance (seconds : Nat) : Act b (b.advance seconds)
  | openGate (gate : String) : Act b (b.openGate gate)
  | closePool : Act b b.closePool
  | prepare (answer : Answer) : Act b (b.prepare answer)

theorem Act.move (h : b.Act b') : b.Move b' := by
  cases h with
  | publish p id event => exact .publish p id event
  | handle element event => exact .handle element event
  | receive exchange m => exact .receive exchange m
  | forward forwarder event => exact .forward forwarder event
  | advance seconds => exact .advance seconds
  | openGate gate => exact .openGate gate
  | closePool => exact .closePool
  | prepare answer => exact .prepare answer

/-- **Nothing is forgotten, whatever is done.** -/
theorem Custody.act (h : b.Custody [] []) (hact : b.Act b') : b'.Custody [] [] := by
  cases hact with
  | publish p id event =>
    unfold Bridge.publish
    split
    · exact h
    · exact h.handle ..
  | handle element event => exact h.handle ..
  | receive exchange m => exact h.receive ..
  | forward forwarder event => exact h.idles (idles_forward ..)
  | advance seconds =>
    have hlater : Custody { b with now := b.now + seconds } [] [] :=
      { h with
        steady := h.steady.opens (.later seconds)
        kept := h.kept
        once := h.once
        known := h.known }
    exact hlater.expire
  | openGate gate => exact h.openGate gate
  | closePool => exact h.closePool
  | prepare answer => exact h.idles (idles_prepare b answer)

end Bridge

end Correlator
