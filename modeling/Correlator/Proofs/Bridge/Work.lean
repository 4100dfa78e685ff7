import Correlator.Proofs.Bridge.Deadlines
import Correlator.Proofs.Pool.Jobs
import Correlator.Proofs.Switchboard.Tended

/-!
# What is under way at a bridge

Requests that go out and requests that came in, and what the work of a bridge does to them.

* `Item`: a request of either kind; `Task.item`: the one that a task is about.
* `Bridge.Unsettled`: nobody was told yet what became of it, or its job is not over.
* `Pool.Fades`: at a closed pool in whose line nobody is, no job starts.
* `Bridge.Fares`: nothing becomes unsettled, and no job starts at a closed pool; `Bridge.Works`:
  besides, the switchboard stays as it is as far as it is tended.
* `Bridge.Ran`: what it comes to that a job has ended, or that a gate holds it up;
  **`Bridge.ran_runJob`**: every job comes to that. `Bridge.ran_turnAway`: so
  does one that is turned away.
* `Bridge.Idles`: work that leaves all tasks where they are.
-/

namespace Correlator

/-! ## Items -/

/-- A request that goes out, or one that came in. -/
inductive Item
  | send (n : Nat)
  | inbound (n : Nat)
  deriving DecidableEq, Repr

namespace Task

/-- The request that a task is about. -/
def item : Task → Item
  | .transport n | .deliver n => .send n
  | .dispatch n => .inbound n

/-- Whether a task is a job of the pool. -/
def isJob : Task → Bool
  | .transport _ => false
  | .deliver _ | .dispatch _ => true

end Task

/-! ## Sends -/

/-- Whatever a delivery ends with, nothing can change any more. -/
theorem Delivery.isTerminal_of_conclude {α : Type} {d : Delivery α} {e : Endpoint}
    {result : Except Fault Taken} {state : SendState} {moved? : Option Series}
    (h : d.conclude e result = .resolved state moved?) : state.isTerminal = true := by
  unfold conclude at h
  dsimp only at h
  split at h
  · cases h
    rfl
  · cases h
    rfl
  all_goals
    split at h
    · cases h
      rfl
    · cases h

theorem Delivery.isTerminal_settled {α : Type} (d : Delivery α) (status : Nat) (taken : Bool) :
    (d.settled status taken).1.isTerminal = true := by
  unfold settled
  split
  · rfl
  · split <;> rfl

theorem Delivery.isTerminal_ending (d : Delivery Consumer) (s : Switchboard) (e : Endpoint)
    (returns : Bool) (result : Except Fault Taken) :
    (d.ending s e returns result).1.state.isTerminal = true := by
  unfold ending
  split
  · rename_i hresolved
    exact isTerminal_of_conclude hresolved
  · split
    · exact d.isTerminal_settled _ _
    · split
      · exact d.isTerminal_settled _ _
      · cases returns with
        | true => exact d.isTerminal_settled _ _
        | false => rfl

namespace Send

variable {s s' s'' : Send}

/-- Where a send stands that nobody has looked at: it is under way, its sender was told its final
state, or the transport broke down and nobody was left to tell it. -/
inductive Stands (s : Send) : Prop
  | new : s.handle = .new → Stands s
  | told (state : SendState) : state.isTerminal = true → s.handle = ⟨.sent, .resolved state⟩ →
      Stands s
  | lost : s.answer.outcome = .crashes → s.handle = ⟨.sent, .gone⟩ → Stands s

/-- A send goes on: it does not begin anew, and it stands where a send may stand. -/
structure Fares (s s' : Send) : Prop where
  new : s'.handle = .new → s.handle = .new
  stands : s.Stands → s'.Stands

theorem Fares.refl (s : Send) : s.Fares s := ⟨fun h => h, fun h => h⟩

theorem Fares.trans (h : s.Fares s') (h' : s'.Fares s'') : s.Fares s'' :=
  ⟨h.new ∘ h'.new, h'.stands ∘ h.stands⟩

/-- What is read of a response does not matter to the sender. -/
theorem fares_reading (s : Send) (reading? : Option (Intake × Body)) :
    s.Fares { s with reading? } := by
  refine ⟨fun h => h, fun h => ?_⟩
  cases h with
  | new hnew => exact .new hnew
  | told state hfinal htold => exact .told state hfinal htold
  | lost hcrashes hgone => exact .lost hcrashes hgone

/-- A sender that was told something does not wait as if nothing had happened. -/
theorem handle_told_ne (s : Send) (state : SendState) : (s.told state).handle ≠ .new := by
  obtain ⟨request, delivery, answer, reading?, seen, other⟩ := s
  cases other <;> simp [told, SendHandle.resolve?, SendHandle.new]

theorem fares_told (s : Send) {state : SendState} (hfinal : state.isTerminal = true) :
    s.Fares (s.told state) := by
  refine ⟨fun h => absurd h (s.handle_told_ne state), fun h => ?_⟩
  obtain ⟨request, delivery, answer, reading?, handle⟩ := s
  cases h with
  | new hnew =>
    cases hnew
    exact .told state hfinal rfl
  | told state' hfinal' htold =>
    cases htold
    exact .told state' hfinal' rfl
  | lost hcrashes hgone =>
    cases hgone
    exact .lost hcrashes rfl

/-- The other end of a send is given up. -/
def abandoned (s : Send) : Send := { s with handle := s.handle.abandon }

theorem handle_abandoned_ne (s : Send) : s.abandoned.handle ≠ .new := by
  obtain ⟨request, delivery, answer, reading?, seen, other⟩ := s
  cases other <;> simp [abandoned, SendHandle.abandon, SendHandle.new]

theorem fares_abandoned (hcrashes : s.answer.outcome = .crashes) : s.Fares s.abandoned := by
  refine ⟨fun h => absurd h s.handle_abandoned_ne, fun h => ?_⟩
  obtain ⟨request, delivery, answer, reading?, handle⟩ := s
  cases h with
  | new hnew =>
    cases hnew
    exact .lost hcrashes rfl
  | told state hfinal htold =>
    cases htold
    exact .told state hfinal rfl
  | lost hcrashes hgone =>
    cases hgone
    exact .lost hcrashes rfl

end Send

/-! ## Calls -/

/-- A call that was told how its job ended waits for the job no longer. -/
theorem Exchange.phase_ne_of_joined {x : Exchange} {id : String} {e : DispatchEnd}
    {deadline : Nat} {c : Call} (hc : (x.joined id e deadline).call? id = some c) :
    c.phase ≠ .dispatching := by
  unfold joined at hc
  split at hc
  · split at hc
    · rw [call?_conclude, if_pos rfl] at hc
      obtain ⟨c₀, -, rfl⟩ := Option.map_eq_some_iff.1 hc
      simp
    · rw [call?_alter _ _ _ fun c => c.await_id deadline, if_pos rfl] at hc
      obtain ⟨c₀, -, rfl⟩ := Option.map_eq_some_iff.1 hc
      unfold Call.await
      split <;> simp
  · rename_i hnot
    intro hphase
    rw [hc] at hnot
    simp [Call.isDispatching, hphase] at hnot

/-! ## Closed pools -/

namespace Pool

variable {α : Type} {p p' p'' : Pool α}

/-- Nobody is in line at a closed pool, and no job starts there. -/
structure Fades (p p' : Pool α) : Prop where
  closed : p'.isOpen = false
  line : p'.line = []
  running : p'.running.Sublist p.running

/-- A pool that is closed, and has nobody in line. -/
def Shut (p : Pool α) : Prop := p.isOpen = false ∧ p.line = []

theorem Fades.shut (h : p.Fades p') : p'.Shut := ⟨h.closed, h.line⟩

theorem Shut.fades (h : p.Shut) : p.Fades p := ⟨h.1, h.2, .refl _⟩

theorem Fades.trans (h : p.Fades p') (h' : p'.Fades p'') : p.Fades p'' :=
  ⟨h'.closed, h'.line, h'.running.trans h.running⟩

theorem Shut.release [BEq α] (h : p.Shut) (t : α) : p.Fades (p.release t).1 := by
  obtain ⟨size, running, line, isOpen⟩ := p
  obtain ⟨rfl, rfl⟩ := h
  exact ⟨rfl, rfl, List.erase_sublist ..⟩

theorem Shut.submit (h : p.Shut) (t : α) : p.submit t = (p, .refused) := by
  simp [Pool.submit, h.1]

end Pool

namespace Bridge

variable {b b' b'' : Bridge} {n : Nat} {t : Task} {ended : Bool}

/-! ## What is under way -/

/-- A send that nobody was told about, or a request whose job is not over. -/
def Unsettled (b : Bridge) : Item → Prop
  | .send n => ∃ s, b.sends[n]? = some s ∧ s.handle = .new
  | .inbound n => ∃ c, b.call? n = some c ∧ c.phase = .dispatching

/-- Nothing becomes unsettled, and at a closed pool no job starts. -/
structure Fares (b b' : Bridge) : Prop where
  runs : b.Runs b'
  sends : ∀ (n : Nat) (s' : Send), b'.sends[n]? = some s' →
    ∃ s, b.sends[n]? = some s ∧ s.Fares s'
  pool : b.pool.Shut → b.pool.Fades b'.pool

theorem Fares.refl (b : Bridge) : b.Fares b :=
  ⟨Goes.refl b, fun _ s hs => ⟨s, hs, .refl s⟩, Pool.Shut.fades⟩

theorem Fares.trans (h : b.Fares b') (h' : b'.Fares b'') : b.Fares b'' where
  runs := h.runs.trans h'.runs
  sends n s'' hs'' := by
    obtain ⟨s', hs', hfares'⟩ := h'.sends n s'' hs''
    obtain ⟨s, hs, hfares⟩ := h.sends n s' hs'
    exact ⟨s, hs, hfares.trans hfares'⟩
  pool hshut := (h.pool hshut).trans (h'.pool (h.pool hshut).shut)

/-- Nothing becomes unsettled. -/
theorem Fares.unsettled (h : b.Fares b') (hb : b.Steady) {item : Item}
    (hopen : b'.Unsettled item) : b.Unsettled item := by
  cases item with
  | send n =>
    obtain ⟨s', hs', hnew⟩ := hopen
    obtain ⟨s, hs, hfares⟩ := h.sends n s' hs'
    exact ⟨s, hs, hfares.new hnew⟩
  | inbound n =>
    obtain ⟨c', hc', hphase⟩ := hopen
    obtain ⟨⟨k, id⟩, hseat, -⟩ := Option.bind_eq_some_iff.1 hc'
    rw [h.runs.seats] at hseat
    obtain ⟨c, hc⟩ := hb.called n (List.getElem?_eq_some_iff.1 hseat).1
    obtain ⟨c'', hc'', hgoes⟩ := hb.call?_goes h.runs hc
    cases hc'.symm.trans hc''
    refine ⟨c, hc, ?_⟩
    rcases hgoes.phase with hsame | ⟨r, hanswered⟩ | ⟨deadline, -, -, hwaits⟩
    · exact hsame.symm.trans hphase
    · cases hanswered.symm.trans hphase
    · cases hwaits.symm.trans hphase

/-- Besides, the switchboard stays as it is as far as it is tended. -/
structure Works (b b' : Bridge) : Prop extends Fares b b' where
  stays : b.switchboard.Stays b'.switchboard

theorem Works.refl (b : Bridge) : b.Works b := ⟨.refl b, .refl _⟩

theorem Works.trans (h : b.Works b') (h' : b'.Works b'') : b.Works b'' :=
  ⟨h.toFares.trans h'.toFares, h.stays.trans h'.stays⟩

/-- Work that concerns neither a send nor the pool. -/
theorem works_of_eq (hruns : b.Runs b') (hsends : b'.sends = b.sends) (hpool : b'.pool = b.pool)
    (hstays : b.switchboard.Stays b'.switchboard) : b.Works b' where
  runs := hruns
  sends _ s' hs' := ⟨s', hsends ▸ hs', .refl s'⟩
  pool hshut := hpool.symm ▸ hshut.fades
  stays := hstays

/-- Work that concerns no more than one send. -/
theorem works_of_set {s s' : Send} (hs : b.sends[n]? = some s) (hfares : s.Fares s')
    (hruns : b.Runs b') (hsends : b'.sends = b.sends.set n s') (hpool : b'.pool = b.pool)
    (hswitchboard : b'.switchboard = b.switchboard) : b.Works b' where
  runs := hruns
  sends m r hr := by
    rw [hsends, List.getElem?_set] at hr
    split at hr
    · rename_i hm
      subst hm
      split at hr
      · cases hr
        exact ⟨s, hs, hfares⟩
      · cases hr
    · exact ⟨r, hr, .refl r⟩
  pool hshut := hpool.symm ▸ hshut.fades
  stays := hswitchboard ▸ .refl _

/-- Work that concerns gates only. -/
theorem works_of_gates (b : Bridge) (gates : Gates Task) : b.Works { b with gates } :=
  works_of_eq ⟨rfl, rfl, rfl, .refl _⟩ rfl rfl (.refl _)

/-! ## Small things -/

/-- Work that leaves all tasks where they are. -/
structure Idles (b b' : Bridge) : Prop extends Works b b' where
  jobs : b'.pool = b.pool
  gates : b'.gates = b.gates

theorem Idles.refl (b : Bridge) : b.Idles b := ⟨.refl b, rfl, rfl⟩

/-- Work that concerns neither a send nor the pool nor a gate. -/
theorem idles_of_eq (hruns : b.Runs b') (hsends : b'.sends = b.sends) (hpool : b'.pool = b.pool)
    (hgates : b'.gates = b.gates) (hstays : b.switchboard.Stays b'.switchboard) : b.Idles b' :=
  ⟨works_of_eq hruns hsends hpool hstays, hpool, hgates⟩

theorem idles_count (b : Bridge) (series : Series) : b.Idles (b.count series) :=
  idles_of_eq ⟨rfl, rfl, rfl, .refl _⟩ rfl rfl rfl (.refl _)

theorem idles_gauge (b : Bridge) : b.Idles b.gauge :=
  idles_of_eq ⟨rfl, rfl, rfl, .refl _⟩ rfl rfl rfl (.refl _)

theorem idles_prepare (b : Bridge) (answer : Answer) : b.Idles (b.prepare answer) :=
  idles_of_eq ⟨rfl, rfl, rfl, .refl _⟩ rfl rfl rfl (.refl _)

theorem idles_nextAnswer (b : Bridge) : b.Idles b.nextAnswer.2 := by
  unfold nextAnswer
  split
  · exact idles_of_eq ⟨rfl, rfl, rfl, .refl _⟩ rfl rfl rfl (.refl _)
  · exact .refl b

theorem idles_join (b : Bridge) (i : Inbound) (e : DispatchEnd) : b.Idles (b.join i e) :=
  idles_of_eq (runs_join b i e) rfl rfl rfl
    (Switchboard.stays_alterExchange _ _ fun x => x.stays_joined i.id e b.deadline)

theorem idles_expire (b : Bridge) : b.Idles b.expire :=
  idles_of_eq (rests_expire b).runs rfl rfl rfl (b.switchboard.stays_expire b.now)

theorem idles_forward (b : Bridge) (m : Nat) (e : Event) : b.Idles (b.forward m e).1 := by
  have hruns := (rests_forward b m e).runs
  rw [forward_eq] at hruns ⊢
  split
  · rename_i k hk
    rw [hk] at hruns
    dsimp only at hruns ⊢
    rw [hand_eq] at hruns ⊢
    exact idles_of_eq hruns rfl rfl rfl (.refl _)
  · exact .refl b

theorem idles_answer (b : Bridge) (sourceId id : String) (reply : Reply) :
    b.Idles (b.answer sourceId id reply).1 := by
  have hruns := (rests_answer b sourceId id reply).runs
  unfold answer at hruns ⊢
  split
  · exact idles_count ..
  · rename_i l hl
    rw [hl] at hruns
    dsimp only at hruns ⊢
    split
    · rename_i htaken
      rw [if_pos htaken] at hruns
      exact idles_of_eq hruns rfl rfl rfl
        (Switchboard.stays_alterExchange _ _ fun x => x.stays_reply id reply)
    · rename_i htaken
      rw [if_neg htaken] at hruns
      exact idles_of_eq hruns rfl rfl rfl
        (Switchboard.stays_alterExchange _ _ fun x => x.stays_reply id reply)

theorem idles_give (b : Bridge) (sourceId : String) (answer? : Option (String × Reply)) :
    b.Idles (b.give sourceId answer?).1 := by
  unfold give
  split
  · exact idles_count ..
  · exact idles_answer ..

theorem idles_respond (b : Bridge) (s : ResponseSink) (e : Event) :
    b.Idles (b.respond s e).1 := by
  unfold respond
  split
  · exact .refl b
  · exact idles_give ..

/-! ## Jobs -/

/-- A send that does not wait as if nothing had happened is settled. -/
theorem not_unsettled_set {s : Send} (hne : s.handle ≠ .new)
    (hsends : b'.sends = b.sends.set n s) : ¬b'.Unsettled (.send n) := by
  rintro ⟨r, hr, hnew⟩
  rw [hsends, List.getElem?_set, if_pos rfl] at hr
  split at hr
  · cases hr
    exact hne hnew
  · cases hr

/-- A request whose call was told how its job ended is settled. -/
theorem not_unsettled_joined {i : Inbound} {e : DispatchEnd} {deadline : Nat}
    (hi : b'.inbound[n]? = some i)
    (hs : b'.switchboard = b.switchboard.alterExchange i.exchange (·.joined i.id e deadline)) :
    ¬b'.Unsettled (.inbound n) := by
  rintro ⟨c, hc, hphase⟩
  obtain ⟨⟨k, id⟩, hseat, hc⟩ := Option.bind_eq_some_iff.1 hc
  obtain ⟨x', hx', hc⟩ := Option.bind_eq_some_iff.1 hc
  unfold seats at hseat
  rw [List.getElem?_map, hi] at hseat
  cases hseat
  obtain ⟨x, -, rfl⟩ := Switchboard.exchange?_modify (congrArg Switchboard.exchangeList hs) hx'
  rw [if_pos rfl] at hc
  exact Exchange.phase_ne_of_joined hc hphase

/-- Nothing is unsettled that there is not. -/
theorem not_unsettled_send (h : b.sends[n]? = none) : ¬b.Unsettled (.send n) := by
  rintro ⟨s, hs, -⟩
  cases h.symm.trans hs

theorem not_unsettled_inbound (h : b.inbound[n]? = none) : ¬b.Unsettled (.inbound n) := by
  rintro ⟨c, hc, -⟩
  obtain ⟨seat, hseat, -⟩ := Option.bind_eq_some_iff.1 hc
  unfold seats at hseat
  rw [List.getElem?_map, h] at hseat
  cases hseat

/-- What a job comes to: it ends and its request is settled, or a gate holds it up. -/
structure Ran (b b' : Bridge) (t : Task) (ended : Bool) : Prop where
  works : b.Works b'
  pool : b'.pool = b.pool
  waiting : ended = true → b'.gates.waiting = b.gates.waiting
  held : ended = false → ∃ gate, b'.gates.waiting = b.gates.waiting ++ [(gate, t)]
  settled : ended = true → ¬b'.Unsettled t.item

/-- A job that has ended. -/
theorem ran_ended (hworks : b.Works b') (hpool : b'.pool = b.pool)
    (hwaiting : b'.gates.waiting = b.gates.waiting) (hsettled : ¬b'.Unsettled t.item) :
    b.Ran b' t true := ⟨hworks, hpool, fun _ => hwaiting, nofun, fun _ => hsettled⟩

/-- A job that is held up. -/
theorem ran_held {gate : String} (hworks : b.Works b') (hpool : b'.pool = b.pool)
    (hwaiting : b'.gates.waiting = b.gates.waiting ++ [(gate, t)]) : b.Ran b' t false :=
  ⟨hworks, hpool, nofun, fun _ => ⟨gate, hwaiting⟩, nofun⟩

/-- A dispatch that is concluded changes the meter and what was handed out, and tells its call. -/
theorem concludeDispatch_eq (b : Bridge) (i : Inbound) (read : Except Fault String) :
    ∃ meter events e, b.concludeDispatch i read = { b with meter, events }.join i e := by
  have hcount : ∀ moved?, ∃ meter, b.count? moved? = { b with meter } := by
    rintro (_ | moved)
    · exact ⟨b.meter, rfl⟩
    · exact ⟨_, rfl⟩
  unfold concludeDispatch
  rcases i.dispatch.conclude read with ⟨outcome, event?, moved?⟩
  obtain ⟨meter, hmeter⟩ := hcount moved?
  dsimp only
  rw [hmeter]
  cases event? with
  | none => exact ⟨meter, b.events, .ran outcome, rfl⟩
  | some e =>
    cases b.switchboard.exchange? i.exchange with
    | none => exact ⟨meter, b.events, .ran outcome, rfl⟩
    | some x =>
      simp only [hand_eq]
      cases x.consumer.fails e with
      | true => exact ⟨meter, _, .crashed, rfl⟩
      | false => exact ⟨meter, _, .ran outcome, rfl⟩

theorem ran_resumeDispatch (b : Bridge) (n : Nat) :
    b.Ran (b.resumeDispatch n).1 (.dispatch n) (b.resumeDispatch n).2 := by
  have hruns := runs_resumeDispatch b n
  unfold resumeDispatch at hruns ⊢
  cases hi : b.inbound[n]? with
  | none => exact ran_ended (.refl b) rfl rfl (not_unsettled_inbound hi)
  | some i =>
    have hwaiting := i.intake.waiting_run b.files b.gates (.dispatch n) i.rest
    rw [hi] at hruns
    unfold takeIn at hruns ⊢
    dsimp only at hruns ⊢
    generalize i.intake.run b.files b.gates (.dispatch n) i.rest = r at hruns hwaiting ⊢
    obtain ⟨progress, files, gates⟩ := r
    cases progress with
    | ended result =>
      obtain ⟨meter, events, e, heq⟩ :=
        concludeDispatch_eq { b with files, gates } i (payloadOf result)
      dsimp only at hruns ⊢
      rw [heq] at hruns ⊢
      refine ran_ended (works_of_eq hruns rfl rfl ?_) rfl hwaiting ?_
      · exact Switchboard.stays_alterExchange _ _ fun x => x.stays_joined i.id e _
      · exact not_unsettled_joined (b := b) hi rfl
    | held intake rest =>
      obtain ⟨gate, hgate⟩ := hwaiting
      exact ran_held (works_of_eq hruns rfl rfl (.refl _)) rfl hgate

theorem sends_resolve {s : Send} (hs : b.sends[n]? = some s) (state : SendState) :
    (b.resolve n state).sends = b.sends.set n (s.told state) :=
  congrArg Bridge.sends (alterSend_eq hs _)

/-- A send that is told how its delivery ended. -/
theorem ran_told {s : Send} {state : SendState} (hs : b.sends[n]? = some s)
    (hfinal : state.isTerminal = true) (hruns : b.Runs b')
    (hsends : b'.sends = b.sends.set n (s.told state)) (hpool : b'.pool = b.pool)
    (hswitchboard : b'.switchboard = b.switchboard)
    (hwaiting : b'.gates.waiting = b.gates.waiting) : b.Ran b' (.deliver n) true :=
  ran_ended (works_of_set hs (s.fares_told hfinal) hruns hsends hpool hswitchboard)
    hpool hwaiting (not_unsettled_set (s.handle_told_ne state) hsends)

theorem ran_resumeDelivery {s : Send} (hs : b.sends[n]? = some s) (e : Endpoint) (i : Intake)
    (body : Body) :
    b.Ran (b.resumeDelivery n s e i body).1 (.deliver n) (b.resumeDelivery n s e i body).2 := by
  have hruns := (rests_resumeDelivery b n s e i body).runs
  have hwaiting := i.waiting_run b.files b.gates (.deliver n) body
  unfold resumeDelivery takeIn at hruns ⊢
  generalize i.run b.files b.gates (.deliver n) body = r at hruns hwaiting ⊢
  obtain ⟨progress, files, gates⟩ := r
  cases progress with
  | ended result =>
    obtain ⟨returns, meter, heq⟩ := concludeDelivery_eq (b := { b with files, gates }) hs e result
    dsimp only at hruns ⊢
    rw [heq] at hruns ⊢
    exact ran_told hs (s.delivery.isTerminal_ending ..) hruns rfl rfl rfl hwaiting
  | held i rest =>
    obtain ⟨gate, hgate⟩ := hwaiting
    dsimp only at hruns ⊢
    rw [alterSend_eq (b := { b with files, gates }) hs] at hruns ⊢
    exact ran_held (works_of_set hs (s.fares_reading _) hruns rfl rfl rfl) rfl hgate

/-- It does not matter to a job what files there were before. -/
theorem Ran.of_files {files : FileTree} (h : Ran { b with files } b' t ended) :
    b.Ran b' t ended where
  __ := h
  works :=
    have hfiles : b.Works { b with files } :=
      works_of_eq ⟨rfl, rfl, rfl, .refl _⟩ rfl rfl (.refl _)
    hfiles.trans h.works

theorem ran_runDelivery (b : Bridge) (n : Nat) :
    b.Ran (b.runDelivery n).1 (.deliver n) (b.runDelivery n).2 := by
  have hruns := (rests_runDelivery b n).runs
  unfold runDelivery at hruns ⊢
  cases hs : b.sends[n]? with
  | none => exact ran_ended (.refl b) rfl rfl (not_unsettled_send hs)
  | some s =>
    rw [hs] at hruns
    dsimp only at hruns ⊢
    cases hresult : s.result with
    | error fault =>
      rw [hresult] at hruns
      have hsends := sends_resolve (b := b.count (s.delivery.refuse fault).2) hs
        (s.delivery.refuse fault).1
      exact ran_told hs rfl hruns hsends rfl rfl rfl
    | ok message =>
      clear hruns
      dsimp only
      cases s.reading? with
      | some r => exact ran_resumeDelivery hs ..
      | none =>
        dsimp only
        generalize s.delivery.begin b.files = r
        obtain ⟨fault | i, files⟩ := r
        · have hruns := (rests_concludeDelivery { b with files } n s message.endpoint
            (.error fault)).runs
          obtain ⟨returns, meter, heq⟩ :=
            concludeDelivery_eq (b := { b with files }) hs message.endpoint (.error fault)
          dsimp only at hruns ⊢
          rw [heq] at hruns ⊢
          exact (ran_told (b := { b with files }) hs (s.delivery.isTerminal_ending ..) hruns rfl
            rfl rfl rfl).of_files
        · exact (ran_resumeDelivery (b := { b with files }) hs ..).of_files

/-- **Every job ends and settles its request, or a gate holds it up.** -/
theorem ran_runJob (b : Bridge) (ht : t.isJob = true) :
    b.Ran (b.runJob t).1 t (b.runJob t).2 := by
  cases t with
  | dispatch n => exact ran_resumeDispatch b n
  | deliver n => exact ran_runDelivery b n
  | transport n => cases ht

/-- A job that will never run settles its request, too. -/
theorem ran_turnAway (b : Bridge) (ht : t.isJob = true) : b.Ran (b.turnAway t) t true := by
  cases t with
  | dispatch n =>
    unfold turnAway
    dsimp only
    cases hi : b.inbound[n]? with
    | none => exact ran_ended (.refl b) rfl rfl (not_unsettled_inbound hi)
    | some i =>
      exact ran_ended (idles_join b i .turnedAway).toWorks rfl rfl
        (not_unsettled_joined (b := b) hi rfl)
  | deliver n =>
    cases hs : b.sends[n]? with
    | none =>
      have hsame : b.turnAway (.deliver n) = b := by
        simp [turnAway, resolve, alterSend, List.modify_eq_set_getElem?, hs]
      rw [hsame]
      exact ran_ended (.refl b) rfl rfl (not_unsettled_send hs)
    | some s => exact ran_told hs rfl (rests_resolve ..).runs (sends_resolve hs _) rfl rfl rfl
  | transport n => cases ht

/-! ## Jobs one after another -/

theorem works_runJob (b : Bridge) (t : Task) : b.Works (b.runJob t).1 := by
  cases t with
  | dispatch n => exact (ran_resumeDispatch b n).works
  | deliver n => exact (ran_runDelivery b n).works
  | transport n => exact .refl b

theorem works_release (b : Bridge) (t : Task) : b.Works (b.release t).1 where
  runs := (rests_release b t).runs
  sends _ s hs := ⟨s, hs, .refl s⟩
  pool hshut := hshut.release t
  stays := .refl _

theorem works_runFrom (b : Bridge) (t : Task) (fuel : Nat) : b.Works (b.runFrom t fuel) := by
  induction fuel generalizing b t with
  | zero => exact .refl b
  | succ fuel ih =>
    have hjob := works_runJob b t
    unfold runFrom
    generalize b.runJob t = r at hjob ⊢
    obtain ⟨b₁, _ | _⟩ := r
    · exact hjob
    · have hrelease := hjob.trans (works_release b₁ t)
      dsimp only
      generalize b₁.release t = r at hrelease ⊢
      obtain ⟨b₂, _ | next⟩ := r
      · exact hrelease
      · exact hrelease.trans (ih b₂ next)

theorem works_run (b : Bridge) (t : Task) : b.Works (b.run t) := works_runFrom b t _

theorem works_turnAway (b : Bridge) (t : Task) : b.Works (b.turnAway t) := by
  cases t with
  | dispatch n => exact (b.ran_turnAway rfl).works
  | deliver n => exact (b.ran_turnAway rfl).works
  | transport n => exact .refl b

/-- The pool of a bridge changes that is not closed. -/
theorem works_of_isOpen (pool : Pool Task) (hopen : b.pool.isOpen = true) :
    b.Works { b with pool } where
  runs := ⟨rfl, rfl, rfl, .refl _⟩
  sends _ s hs := ⟨s, hs, .refl s⟩
  pool hshut := Bool.noConfusion (hshut.1.symm.trans hopen)
  stays := .refl _

/-- The pool is closed; those who were in line are yet to be turned away. -/
theorem works_close (b : Bridge) : b.Works { b with pool := b.pool.close.1 } where
  runs := ⟨rfl, rfl, rfl, .refl _⟩
  sends _ s hs := ⟨s, hs, .refl s⟩
  pool _ := ⟨rfl, rfl, .refl _⟩
  stays := .refl _

theorem works_submit (b : Bridge) (t : Task) : b.Works (b.submit t) := by
  unfold submit Pool.submit
  cases hopen : b.pool.isOpen with
  | false => exact works_turnAway b t
  | true =>
    simp only [Bool.not_true, Bool.false_eq_true, if_false]
    split
    · rename_i pool hpool
      exact ((works_of_isOpen pool hopen).trans (idles_gauge _).toWorks).trans (works_run ..)
    · exact works_of_isOpen _ hopen
    · exact works_turnAway b t

/-- A send is lost whose transport breaks down. -/
theorem ran_abandon {s : Send} (hs : b.sends[n]? = some s)
    (hcrashes : s.answer.outcome = .crashes) :
    b.Ran (b.alterSend n Send.abandoned) (.transport n) true := by
  have hsends := congrArg Bridge.sends (alterSend_eq hs Send.abandoned)
  exact ran_ended (works_of_set hs (Send.fares_abandoned hcrashes) ⟨rfl, rfl, rfl, .refl _⟩
    hsends rfl rfl) rfl rfl (not_unsettled_set s.handle_abandoned_ne hsends)

theorem works_arrive (b : Bridge) (n : Nat) : b.Works (b.arrive n) := by
  unfold arrive
  split
  · exact .refl b
  · rename_i s hs
    split
    · rename_i hcrashes
      exact (ran_abandon hs hcrashes).works
    · exact works_submit ..

theorem works_passed (b : Bridge) (t : Task) : b.Works (b.passed t) := by
  cases t with
  | transport n => exact works_arrive b n
  | dispatch n | deliver n => exact works_run ..

theorem works_foldl {f : Bridge → Task → Bridge} (hf : ∀ (b : Bridge) (t : Task), b.Works (f b t))
    (b : Bridge) (tasks : List Task) : b.Works (tasks.foldl f b) := by
  induction tasks generalizing b with
  | nil => exact .refl b
  | cons t tasks ih => exact (hf b t).trans (ih (f b t))

end Bridge

end Correlator
