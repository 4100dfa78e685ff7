import Correlator.Proofs.Bridge.Course
import Correlator.Proofs.Exchange.Waits
import Correlator.Proofs.Switchboard.Turns

/-!
# What a bridge does to calls that wait

Whatever happens to a bridge, its calls go on as `Exchange.Goes` has it: a call begins to wait only
when its job comes to its end, and whenever one may have, time is looked at.

* `Switchboard.Goes`, `Bridge.Goes`: what becomes of the exchanges while time stands still and no
  request comes. `Bridge.Rests`, `Bridge.Runs`: no job comes to its end meanwhile, or some may.
* `Pipeline.goes_start`, `Pipeline.goes_shutdown`: pipelines that are started and stopped.
* `Bridge.runs_runFrom`, `Bridge.runs_submit`, `Bridge.runs_passed`: jobs.
* `Bridge.Opens`: what a move begins with; `Bridge.Comes`: what it comes to.
* **`Bridge.comes_of_move`**: every move comes to one of these two.
-/

namespace Correlator

/-! ## Switchboards -/

namespace Switchboard

/-- What becomes of the exchanges of a switchboard: their calls go on, and the exchanges that come
have none. -/
structure Goes (deadline? : Option Nat) (s s' : Switchboard) : Prop where
  old : ∀ n x, s.exchange? n = some x → ∃ x', s'.exchange? n = some x' ∧ x.Goes deadline? x'
  new : ∀ x' ∈ s'.exchangeList,
    (∃ x ∈ s.exchangeList, x.Goes deadline? x') ∨ x'.calls = []

variable {deadline? : Option Nat} {s s' s'' : Switchboard}

namespace Goes

theorem refl (s : Switchboard) : s.Goes deadline? s :=
  ⟨fun _ x hx => ⟨x, hx, .refl x⟩, fun x hx => .inl ⟨x, hx, .refl x⟩⟩

theorem trans (h : s.Goes deadline? s') (h' : s'.Goes deadline? s'') :
    s.Goes deadline? s'' := by
  refine ⟨fun n x hx => ?_, fun x'' hx'' => ?_⟩
  · obtain ⟨x', hx', hgoes⟩ := h.old n x hx
    obtain ⟨x'', hx'', hgoes'⟩ := h'.old n x' hx'
    exact ⟨x'', hx'', hgoes.trans hgoes'⟩
  · rcases h'.new x'' hx'' with ⟨x', hx', hgoes'⟩ | hnone
    · rcases h.new x' hx' with ⟨x, hx, hgoes⟩ | hnone
      · exact .inl ⟨x, hx, hgoes.trans hgoes'⟩
      · have hids : x''.ids = [] := by rw [hgoes'.ids, Exchange.ids, hnone, List.map_nil]
        exact .inr (List.map_eq_nil_iff.1 hids)
    · exact .inr hnone

theorem mono (h : s.Goes none s') : s.Goes deadline? s' := by
  refine ⟨fun n x hx => ?_, fun x' hx' => ?_⟩
  · obtain ⟨x', hx', hgoes⟩ := h.old n x hx
    exact ⟨x', hx', hgoes.mono⟩
  · rcases h.new x' hx' with ⟨x, hx, hgoes⟩ | hnone
    · exact .inl ⟨x, hx, hgoes.mono⟩
    · exact .inr hnone

end Goes

theorem goes_of_exchangeList_eq (h : s'.exchangeList = s.exchangeList) :
    s.Goes deadline? s' := by
  refine ⟨fun n x hx => ⟨x, ?_, .refl x⟩, fun x hx => .inl ⟨x, h ▸ hx, .refl x⟩⟩
  unfold exchange? at hx ⊢
  rw [h]
  exact hx

theorem goes_alterExchange (s : Switchboard) (n : Nat) {f : Exchange → Exchange}
    (hf : ∀ x : Exchange, x.Goes deadline? (f x)) : s.Goes deadline? (s.alterExchange n f) := by
  have hif : ∀ (n' : Nat) (x : Exchange), x.Goes deadline? (if n = n' then f x else x) := by
    intro n' x
    split
    · exact hf x
    · exact .refl x
  refine ⟨fun n' x hx => ⟨if n = n' then f x else x, ?_, hif n' x⟩, fun x' hx' => .inl ?_⟩
  · show (s.exchangeList.modify n f)[n']? = _
    rw [List.getElem?_modify, show s.exchangeList[n']? = some x from hx]
    rfl
  · obtain ⟨n', hn'⟩ := List.getElem?_of_mem hx'
    obtain ⟨x, hx, rfl⟩ := Option.map_eq_some_iff.1 ((List.getElem?_modify _ _ _ _).symm.trans hn')
    exact ⟨x, List.mem_of_getElem? hx, hif n' x⟩

/-- One more exchange that has no calls. -/
theorem goes_snoc {y : Exchange} (hy : y.calls = [])
    (hs : s'.exchangeList = s.exchangeList ++ [y]) : s.Goes deadline? s' := by
  refine ⟨fun n x hx => ⟨x, ?_, .refl x⟩, fun x hx => ?_⟩
  · unfold exchange? at hx ⊢
    rw [hs, List.getElem?_append_left (List.getElem?_eq_some_iff.1 hx).1, hx]
  · rw [hs] at hx
    rcases List.mem_append.1 hx with hx | hx
    · exact .inl ⟨x, hx, .refl x⟩
    · cases List.mem_singleton.1 hx
      exact .inr hy

/-- The calls go on when an element comes or goes. -/
theorem goes_turn (h : s.Turn s') : s.Goes deadline? s' := by
  cases h with
  | same _ hs => exact goes_of_exchangeList_eq hs
  | comes _ _ attributes k _ hs => exact goes_snoc rfl hs
  | inVain attributes k _ hs => exact goes_snoc rfl hs
  | goes _ _ l _ hs =>
    exact (goes_alterExchange s l.handler Exchange.goes_disconnect).trans
      (goes_of_exchangeList_eq hs)

theorem goes_turns (h : s.Turns s') : s.Goes deadline? s' := by
  induction h with
  | refl => exact .refl s
  | tail _ hturn ih => exact ih.trans (goes_turn hturn)

end Switchboard

theorem Pipeline.goes_start {deadline? : Option Nat} (p : Pipeline) (s : Switchboard) :
    s.Goes deadline? (p.start s).2.1 := Switchboard.goes_turns (p.turns_start s)

theorem Pipeline.goes_shutdown {deadline? : Option Nat} (p : Pipeline) (s : Switchboard) :
    s.Goes deadline? (p.shutdown s).2 := Switchboard.goes_turns (p.turns_shutdown s)

/-! ## Bridges -/

namespace Bridge

variable {deadline? : Option Nat} {b b' b'' : Bridge}

/-- Where a request waits. -/
def seats (b : Bridge) : List (Nat × String) := b.inbound.map fun i => (i.exchange, i.id)

theorem length_seats (b : Bridge) : b.seats.length = b.inbound.length := List.length_map _

/-- What becomes of a bridge while time stands still and no request comes. -/
structure Goes (deadline? : Option Nat) (b b' : Bridge) : Prop where
  now : b'.now = b.now
  timeout : b'.timeout = b.timeout
  seats : b'.seats = b.seats
  switchboard : b.switchboard.Goes deadline? b'.switchboard

/-- No job comes to its end. -/
abbrev Rests (b b' : Bridge) : Prop := b.Goes none b'

/-- Jobs come to their end. -/
abbrev Runs (b b' : Bridge) : Prop := b.Goes (some b.deadline) b'

theorem Goes.refl (b : Bridge) : b.Goes deadline? b := ⟨rfl, rfl, rfl, .refl _⟩

theorem Goes.trans (h : b.Goes deadline? b') (h' : b'.Goes deadline? b'') :
    b.Goes deadline? b'' :=
  ⟨h'.now.trans h.now, h'.timeout.trans h.timeout, h'.seats.trans h.seats,
    h.switchboard.trans h'.switchboard⟩

theorem Goes.runs (h : b.Rests b') : b.Runs b' :=
  ⟨h.now, h.timeout, h.seats, h.switchboard.mono⟩

theorem Goes.deadline_eq (h : b.Goes deadline? b') : b'.deadline = b.deadline := by
  unfold deadline
  rw [h.now, h.timeout]

theorem Runs.trans (h : b.Runs b') (h' : b'.Runs b'') : b.Runs b'' :=
  Goes.trans h (h.deadline_eq ▸ h')

theorem Goes.trans_runs (h : b.Rests b') (h' : b'.Runs b'') : b.Runs b'' := Runs.trans h.runs h'

/-! ### What leaves the calls alone -/

theorem rests_count? (b : Bridge) (s? : Option Series) : b.Rests (b.count? s?) := by
  cases s? <;> exact ⟨rfl, rfl, rfl, .refl _⟩

theorem rests_hand (b : Bridge) (k : Consumer) (e : Event) : b.Rests (b.hand k e).1 := by
  unfold hand
  split <;> exact ⟨rfl, rfl, rfl, .refl _⟩

theorem rests_forward (b : Bridge) (n : Nat) (e : Event) : b.Rests (b.forward n e).1 := by
  unfold forward
  split
  · split
    · exact rests_hand ..
    · exact .refl b
  · exact .refl b

theorem rests_resolve (b : Bridge) (n : Nat) (state : SendState) : b.Rests (b.resolve n state) :=
  ⟨rfl, rfl, rfl, .refl _⟩

theorem rests_concludeDelivery (b : Bridge) (n : Nat) (s : Send) (e : Endpoint)
    (result : Except Fault Taken) : b.Rests (b.concludeDelivery n s e result) := by
  have hsettle : ∀ (b' : Bridge) (status : Nat) (taken : Bool),
      b'.Rests ((b'.count (s.delivery.settled status taken).2).resolve n
        (s.delivery.settled status taken).1) := fun _ _ _ => ⟨rfl, rfl, rfl, .refl _⟩
  unfold concludeDelivery
  split
  · exact (b.rests_count? _).trans (rests_resolve ..)
  · rename_i status e' _
    dsimp only
    cases s.delivery.route b.switchboard.responses status with
    | none => exact hsettle ..
    | some listener =>
      cases listener with
      | inl consumer =>
        have hhand := b.rests_hand consumer e'
        dsimp only [Option.map_some]
        generalize b.hand consumer e' = r at hhand ⊢
        obtain ⟨b', _ | _⟩ := r
        · exact hhand.trans (rests_resolve ..)
        · exact hhand.trans (hsettle ..)
      | inr forwarder =>
        have hforward := b.rests_forward forwarder e'
        dsimp only [Option.map_some]
        generalize b.forward forwarder e' = r at hforward ⊢
        obtain ⟨b', _ | _⟩ := r
        · exact hforward.trans (rests_resolve ..)
        · exact hforward.trans (hsettle ..)

theorem rests_resumeDelivery (b : Bridge) (n : Nat) (s : Send) (e : Endpoint) (i : Intake)
    (body : Body) : b.Rests (b.resumeDelivery n s e i body).1 := by
  have htake : b.Rests (b.takeIn (.deliver n) i body).1 := ⟨rfl, rfl, rfl, .refl _⟩
  unfold resumeDelivery
  generalize b.takeIn (.deliver n) i body = r at htake ⊢
  obtain ⟨b', result | ⟨i', rest⟩⟩ := r
  · exact htake.trans (rests_concludeDelivery ..)
  · exact htake.trans ⟨rfl, rfl, rfl, .refl _⟩

theorem rests_runDelivery (b : Bridge) (n : Nat) : b.Rests (b.runDelivery n).1 := by
  unfold runDelivery
  split
  · exact .refl b
  · rename_i s _
    split
    · exact ⟨rfl, rfl, rfl, .refl _⟩
    · split
      · exact rests_resumeDelivery ..
      · have hfiles : ∀ files, b.Rests { b with files } := fun _ => ⟨rfl, rfl, rfl, .refl _⟩
        split
        · exact (hfiles _).trans (rests_resumeDelivery ..)
        · exact (hfiles _).trans (rests_concludeDelivery { b with files := _ } ..)

theorem rests_release (b : Bridge) (t : Task) : b.Rests (b.release t).1 := ⟨rfl, rfl, rfl, .refl _⟩

theorem rests_expire (b : Bridge) : b.Rests b.expire := by
  refine ⟨rfl, rfl, rfl, fun n x hx => ⟨x.expire b.now, ?_, x.goes_expire b.now⟩, fun x' hx' => ?_⟩
  · show (b.switchboard.exchangeList.map _)[n]? = _
    rw [List.getElem?_map, show b.switchboard.exchangeList[n]? = some x from hx]
    rfl
  · obtain ⟨x, hx, rfl⟩ := List.mem_map.1 hx'
    exact .inl ⟨x, hx, x.goes_expire b.now⟩

theorem rests_answer (b : Bridge) (sourceId id : String) (reply : Reply) :
    b.Rests (b.answer sourceId id reply).1 := by
  unfold answer
  split
  · exact ⟨rfl, rfl, rfl, .refl _⟩
  · rename_i l _
    have halter : b.Rests (b.alterExchange l.handler fun x => (x.reply id reply).1) :=
      ⟨rfl, rfl, rfl, Switchboard.goes_alterExchange _ _ fun x => x.goes_reply id reply⟩
    dsimp only
    split
    · exact halter
    · exact halter.trans ⟨rfl, rfl, rfl, .refl _⟩

theorem rests_give (b : Bridge) (sourceId : String) (answer? : Option (String × Reply)) :
    b.Rests (b.give sourceId answer?).1 := by
  unfold give
  split
  · exact ⟨rfl, rfl, rfl, .refl _⟩
  · exact rests_answer ..

theorem rests_respond (b : Bridge) (s : ResponseSink) (e : Event) : b.Rests (b.respond s e).1 := by
  unfold respond
  split
  · exact .refl b
  · exact rests_give ..

/-! ### Jobs -/

theorem runs_join (b : Bridge) (i : Inbound) (e : DispatchEnd) : b.Runs (b.join i e) :=
  ⟨rfl, rfl, rfl, Switchboard.goes_alterExchange _ _ fun x => x.goes_joined i.id e b.deadline⟩

theorem runs_concludeDispatch (b : Bridge) (i : Inbound) (read : Except Fault String) :
    b.Runs (b.concludeDispatch i read) := by
  unfold concludeDispatch
  rcases i.dispatch.conclude read with ⟨outcome, event?, moved?⟩
  have hcount := b.rests_count? moved?
  dsimp only
  cases event? with
  | none => exact hcount.trans_runs (runs_join ..)
  | some e =>
    cases (b.count? moved?).switchboard.exchange? i.exchange with
    | none => exact hcount.trans_runs (runs_join ..)
    | some x =>
      have hhand := hcount.trans (rests_hand _ x.consumer e)
      dsimp only
      generalize (b.count? moved?).hand x.consumer e = r at hhand ⊢
      obtain ⟨b', _ | _⟩ := r
      · exact hhand.trans_runs (runs_join ..)
      · exact hhand.trans_runs (runs_join ..)

theorem seats_alterInbound (b : Bridge) (n : Nat) {f : Inbound → Inbound}
    (hf : ∀ i, (f i).exchange = i.exchange ∧ (f i).id = i.id) :
    (b.alterInbound n f).seats = b.seats := map_modify fun i => by rw [(hf i).1, (hf i).2]

theorem runs_resumeDispatch (b : Bridge) (n : Nat) : b.Runs (b.resumeDispatch n).1 := by
  unfold resumeDispatch
  split
  · exact .refl b
  · rename_i i _
    have htake : b.Rests (b.takeIn (.dispatch n) i.intake i.rest).1 := ⟨rfl, rfl, rfl, .refl _⟩
    generalize b.takeIn (.dispatch n) i.intake i.rest = r at htake ⊢
    obtain ⟨b', result | ⟨intake, rest⟩⟩ := r
    · exact htake.trans_runs (runs_concludeDispatch ..)
    · refine htake.trans_runs ⟨rfl, rfl, ?_, .refl _⟩
      exact seats_alterInbound b' n fun _ => ⟨rfl, rfl⟩

theorem runs_runJob (b : Bridge) (t : Task) : b.Runs (b.runJob t).1 := by
  cases t with
  | dispatch n => exact runs_resumeDispatch b n
  | deliver n => exact (rests_runDelivery b n).runs
  | transport n => exact .refl b

theorem runs_runFrom (b : Bridge) (t : Task) (fuel : Nat) : b.Runs (b.runFrom t fuel) := by
  induction fuel generalizing b t with
  | zero => exact .refl b
  | succ fuel ih =>
    have hjob := runs_runJob b t
    unfold runFrom
    generalize b.runJob t = r at hjob ⊢
    obtain ⟨b₁, _ | _⟩ := r
    · exact hjob
    · have hrelease := hjob.trans (rests_release b₁ t).runs
      dsimp only
      generalize b₁.release t = r at hrelease ⊢
      obtain ⟨b₂, _ | next⟩ := r
      · exact hrelease
      · exact hrelease.trans (ih b₂ next)

theorem runs_run (b : Bridge) (t : Task) : b.Runs (b.run t) := runs_runFrom b t _

theorem runs_turnAway (b : Bridge) (t : Task) : b.Runs (b.turnAway t) := by
  cases t with
  | dispatch n =>
    unfold turnAway
    dsimp only
    split
    · exact runs_join ..
    · exact .refl b
  | deliver n => exact (rests_resolve ..).runs
  | transport n => exact .refl b

theorem runs_submit (b : Bridge) (t : Task) : b.Runs (b.submit t) := by
  unfold submit
  split
  · rename_i pool _
    have hpool : b.Rests (gauge { b with pool }) := ⟨rfl, rfl, rfl, .refl _⟩
    exact hpool.trans_runs (runs_run ..)
  · exact ⟨rfl, rfl, rfl, .refl _⟩
  · exact runs_turnAway ..

theorem runs_arrive (b : Bridge) (n : Nat) : b.Runs (b.arrive n) := by
  unfold arrive
  split
  · exact .refl b
  · split
    · exact ⟨rfl, rfl, rfl, .refl _⟩
    · exact runs_submit ..

theorem runs_passed (b : Bridge) (t : Task) : b.Runs (b.passed t) := by
  cases t with
  | transport n => exact runs_arrive b n
  | dispatch n | deliver n => exact runs_run ..

theorem runs_foldl {f : Bridge → Task → Bridge} (hf : ∀ (b : Bridge) (t : Task), b.Runs (f b t))
    (b : Bridge) (tasks : List Task) : b.Runs (tasks.foldl f b) := by
  induction tasks generalizing b with
  | nil => exact .refl b
  | cons t tasks ih => exact (hf b t).trans (ih (f b t))

/-! ### Moves -/

/-- A request comes to its exchange. -/
def welcome (b : Bridge) (i : Inbound) : Bridge :=
  { b with inbound := b.inbound ++ [i] }.alterExchange i.exchange (·.receive i.id)

theorem seats_welcome (b : Bridge) (i : Inbound) :
    (b.welcome i).seats = b.seats ++ [(i.exchange, i.id)] :=
  List.map_append

theorem switchboard_welcome (b : Bridge) (i : Inbound) :
    (b.welcome i).switchboard = b.switchboard.alterExchange i.exchange (·.receive i.id) := rfl

/-- What a move does before jobs go on: nothing, time passes, or a request comes. -/
inductive Opens (b : Bridge) : Bridge → Prop
  | same : Opens b b
  | later (seconds : Nat) : Opens b { b with now := b.now + seconds }
  | welcome (i : Inbound) {x : Exchange} : b.switchboard.exchange? i.exchange = some x →
      i.id = MessageId.ofNumber b.inbound.length → Opens b (b.welcome i)

/-- What a move comes to: jobs go on until time has run out for whom it has, or no job comes to its
end and time stands still. -/
inductive Comes (b : Bridge) : Bridge → Prop
  | runs {b₁ b₂ : Bridge} : b.Opens b₁ → b₁.Runs b₂ → Comes b b₂.expire
  | rests {b₁ b₂ : Bridge} : b.Opens b₁ → b₁.now = b.now → b₁.Rests b₂ → Comes b b₂

theorem comes_of_rests (h : b.Rests b') : b.Comes b' := .rests .same rfl h

theorem comes_of_runs (h : b.Runs b') : b.Comes b'.expire := .runs .same h

theorem rests_nextAnswer (b : Bridge) : b.Rests b.nextAnswer.2 := by
  unfold nextAnswer
  split
  · exact ⟨rfl, rfl, rfl, .refl _⟩
  · exact .refl b

theorem comes_post (b : Bridge) (s : RequestSink) (e : Event) (request : Request) :
    b.Comes (b.post s e request).1 := by
  unfold post
  have hnext := rests_nextAnswer b
  generalize b.nextAnswer = r at hnext ⊢
  obtain ⟨answer, b₁⟩ := r
  have hposted : ∀ send : Send, b.Rests (Bridge.count
      { b₁ with sends := b₁.sends ++ [send], requests := b₁.requests ++ [request] }
      (.requestsSent s.config.sinkId)) := fun _ => hnext.trans ⟨rfl, rfl, rfl, .refl _⟩
  have hsent := hposted ⟨request, s.delivery e request.url b₁.limit, answer, none, .new⟩
  dsimp only at hsent ⊢
  generalize Bridge.count _ _ = b₂ at hsent ⊢
  cases answer.hold? with
  | none => exact comes_of_runs (hsent.trans_runs (runs_arrive ..))
  | some gate =>
    have hgates : ∀ gates, b.Rests { b₂ with gates } :=
      fun _ => hsent.trans ⟨rfl, rfl, rfl, .refl _⟩
    dsimp only
    generalize b₂.gates.arrive gate _ = r
    obtain ⟨gates, _ | _⟩ := r
    · exact comes_of_rests (hgates gates)
    · exact comes_of_runs ((hgates gates).trans_runs (runs_arrive ..))

theorem comes_send (b : Bridge) (s : RequestSink) (e : Event) : b.Comes (b.send s e).1 := by
  unfold send
  split
  · exact comes_of_rests (.refl b)
  · exact comes_post ..

theorem comes_handle (b : Bridge) (element : Element) (e : Event) :
    b.Comes (b.handle element e).1 := by
  unfold handle
  split
  · split
    · exact comes_send ..
    · exact comes_of_rests (.refl b)
  · split
    · exact comes_of_rests (rests_respond ..)
    · exact comes_of_rests (.refl b)
  · exact comes_of_rests (.refl b)

theorem comes_receive (b : Bridge) (exchange : Nat) (m : Message) :
    b.Comes (b.receive exchange m) := by
  unfold receive
  split
  · exact comes_of_rests (.refl b)
  · rename_i x hx
    dsimp only
    split
    · exact .runs (.welcome ⟨exchange, _, _, _, _⟩ hx rfl) (runs_submit ..)
    · exact .rests (.welcome ⟨exchange, _, _, _, _⟩ hx rfl) rfl (.refl _)

theorem comes_of_move (h : b.Move b') : b.Comes b' := by
  cases h with
  | start p => exact comes_of_rests ⟨rfl, rfl, rfl, p.goes_start b.switchboard⟩
  | shutdown p => exact comes_of_rests ⟨rfl, rfl, rfl, p.goes_shutdown b.switchboard⟩
  | publish p id event =>
    unfold publish
    split
    · exact comes_of_rests (.refl b)
    · exact comes_handle ..
  | handle element event => exact comes_handle ..
  | receive exchange m => exact comes_receive ..
  | forward forwarder event => exact comes_of_rests (rests_forward ..)
  | advance seconds => exact .runs (.later seconds) (.refl _)
  | openGate gate =>
    have hgates : b.Rests { b with gates := (b.gates.release gate 1).1 } :=
      ⟨rfl, rfl, rfl, .refl _⟩
    exact comes_of_runs (hgates.trans_runs (runs_foldl runs_passed _ _))
  | closePool =>
    have hpool : b.Rests { b with pool := b.pool.close.1 } := ⟨rfl, rfl, rfl, .refl _⟩
    exact comes_of_runs (hpool.trans_runs (runs_foldl runs_turnAway _ _))
  | giveUp =>
    unfold giveUp
    split
    · exact comes_of_rests (.refl b)
    · exact comes_of_rests ⟨rfl, rfl, rfl, .refl _⟩
  | prepare answer => exact comes_of_rests ⟨rfl, rfl, rfl, .refl _⟩

end Bridge

end Correlator
