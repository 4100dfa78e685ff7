import Correlator.Proofs.Bridge.Shutdown
import Correlator.Proofs.Header.Block
import Correlator.Proofs.Pipeline.Sinks

/-!
# What a publication leaves alone

An event that a sink refuses leaves a bridge as it was. An event that answers a request takes the
one id out of the one table, and the rest stays as it is.

* `Call.Gets`, `Exchange.Answers`, `Bridge.Answers`: a call, an exchange and a bridge once a reply
  was taken; `Exchange.answers_reply`: this is what a reply does that is taken.
* `Bridge.Life`: whatever happens to a bridge, clients that hang up included; `Bridge.Ready`: what
  holds meanwhile.
* `Bridge.Responds`: what becomes of an event for a sink that answers requests, one case for each
  way; `Bridge.responds_respond`.
* **`Bridge.published_of_life`**: what a publication does to the bridge, by its result.
-/

namespace Correlator

/-! ## Calls and exchanges -/

/-- A call that waits is answered with the reply that was taken for it; one that has not heard of
its job yet keeps the reply until then. -/
inductive Call.Gets (c : Call) (reply : Reply) : Call → Prop
  | waiting (deadline : Nat) : c.phase = .waiting deadline →
      c.Gets reply { c with phase := .answered reply }
  | early : c.phase = .parked ∨ c.phase = .dispatching →
      c.Gets reply { c with early? := some reply }

theorem Call.gets_take {c : Call} (hthere : c.isThere = true) (hbare : c.Bare) (reply : Reply) :
    c.Gets reply (c.take reply) := by
  unfold take
  split
  · rename_i hphase
    exact .early (.inl hphase)
  · rename_i hphase
    exact .early (.inr hphase)
  · rename_i deadline hphase
    exact .waiting deadline hphase
  · rename_i holds hphase
    exact absurd hphase (hbare.stays holds)
  · rename_i r hphase
    exact absurd hphase (hbare.unanswered r)
  · rename_i hphase
    simp [isThere, hphase] at hthere

namespace Exchange

variable {x x' : Exchange} {id : String} {reply : Reply}

/-- One parked id was taken out and its call got the reply. Nothing else is changed. -/
structure Answers (x : Exchange) (id : String) (reply : Reply) (x' : Exchange) : Prop where
  parked : id ∈ x.parked
  rest : x'.parked = x.parked.erase id
  gets : ∃ c c', x.call? id = some c ∧ x'.call? id = some c' ∧ c.Gets reply c'
  /-- A call that keeps the reply is answered with it as soon as its job has ended well. -/
  promised : ∀ c, x.call? id = some c → c.phase = .dispatching → ∀ deadline,
    ((x'.joined id (.ran .forwarded) deadline).call? id).bind Call.answer? = some reply
  others : ∀ id', id' ≠ id → x'.call? id' = x.call? id'
  ids : x'.ids = x.ids
  front : x'.front = x.front

theorem isParked_of_taken (htaken : (x.reply id reply).2 = true) : x.isParked id = true := by
  by_contra hnot
  rw [reply_of_not_isParked (Bool.eq_false_iff.2 hnot)] at htaken
  cases htaken

/-- **A reply that is taken** takes its id out of the table, and is with the call of this id. -/
theorem answers_reply (h : x.Expects) (htaken : (x.reply id reply).2 = true) :
    x.Answers id reply (x.reply id reply).1 := by
  have hparked := isParked_of_taken htaken
  have hmem : id ∈ x.parked := (x.isParked_iff id).1 hparked
  obtain ⟨c, hc, hbare⟩ := h.bare id hmem
  have hthere : c.isThere = true := by
    rw [reply_snd hparked, hc] at htaken
    exact htaken
  have hreply : (x.reply id reply).1 = (x.withdraw id).alter id fun c => c.take reply :=
    congrArg Prod.fst (if_pos hparked)
  have hcalls : ∀ id', (x.reply id reply).1.call? id' =
      if id' = id then (x.call? id').map fun c => c.take reply else x.call? id' := by
    intro id'
    rw [hreply]
    exact call?_alter _ _ _ fun c => c.take_id reply
  have hcall : (x.reply id reply).1.call? id = some (c.take reply) := by
    rw [hcalls, if_pos rfl, hc]
    rfl
  exact {
    parked := hmem
    rest := by
      rw [hreply, h.nodup.erase_eq_filter]
      refine List.filter_congr fun id' _ => ?_
      by_cases he : id' = id <;> simp [he]
    gets := ⟨c, c.take reply, hc, hcall, Call.gets_take hthere hbare reply⟩
    promised := by
      intro c₀ hc₀ hphase deadline
      cases hc.symm.trans hc₀
      have htake : c.take reply = { c with early? := some reply } := by simp [Call.take, hphase]
      rw [htake] at hcall
      rw [call?_joined hcall hphase rfl]
      rfl
    others := fun id' hne => by rw [hcalls, if_neg hne]
    ids := ids_reply x id reply
    front := front_reply x id reply }

end Exchange

namespace Bridge

variable {b b' b₀ : Bridge} {n : Nat} {id : String} {reply : Reply} {c : Config} {files : FileTree}

/-- A reply was taken at one exchange. All else is as it was: the other exchanges and the tables,
what the bridge sends and has sent, the pool, the files and the counters. -/
structure Answers (b : Bridge) (n : Nat) (id : String) (reply : Reply) (b' : Bridge) : Prop where
  exchange : ∃ x x', b.switchboard.exchange? n = some x ∧ b'.switchboard.exchange? n = some x' ∧
    x.Answers id reply x'
  others : ∀ m, m ≠ n → b'.switchboard.exchange? m = b.switchboard.exchange? m
  rest : ∃ exchangeList, b' = { b with switchboard := { b.switchboard with exchangeList } }

theorem exchange?_alterExchange (b : Bridge) (n m : Nat) (f : Exchange → Exchange) :
    (b.alterExchange n f).switchboard.exchange? m =
      (b.switchboard.exchange? m).map fun x => if n = m then f x else x :=
  List.getElem?_modify ..

/-- To change an exchange into itself changes nothing. -/
theorem alterExchange_eq_self {f : Exchange → Exchange}
    (h : ∀ x, b.switchboard.exchange? n = some x → f x = x) : b.alterExchange n f = b := by
  have hlist : b.switchboard.exchangeList.modify n f = b.switchboard.exchangeList := by
    apply List.ext_getElem?
    intro m
    rw [List.getElem?_modify]
    cases hx : b.switchboard.exchangeList[m]? with
    | none => rfl
    | some x =>
      by_cases hm : n = m
      · subst hm
        simp [h x hx]
      · simp [hm]
  unfold alterExchange Switchboard.alterExchange
  rw [hlist]

/-! ## States of a bridge -/

/-- What happens at a bridge: a move, or a client hangs up. -/
inductive Happens (b : Bridge) : Bridge → Prop
  | move {b' : Bridge} : b.Move b' → Happens b b'
  | hangUp (n : Nat) (id : String) : Happens b (b.alterExchange n (·.hangUp id))

/-- What happens at a bridge, one thing after another. -/
abbrev Life : Bridge → Bridge → Prop := Relation.ReflTransGen Happens

/-- Whoever is parked has no reply yet, and the ids are those of requests that came in. -/
structure Ready (b : Bridge) : Prop where
  expects : b.switchboard.Expects
  numbered : b.Numbered

theorem ready_new (hnew : new? c files = some b) : b.Ready := by
  refine ⟨?_, (steady_new hnew).1.numbered⟩
  obtain ⟨pool, -, rfl⟩ := Option.map_eq_some_iff.1 hnew
  exact Switchboard.expects_empty

theorem Ready.expects_act (h : b.Ready) (hact : b.Act b') : b'.switchboard.Expects := by
  rcases hact.bides with hbides | ⟨i, x, hx, hid, rfl⟩
  · exact h.expects.stays hbides.stays
  · have hnew : ∀ y, b.switchboard.exchange? i.exchange = some y → y.call? i.id = none := by
      intro y hy
      rw [hid, ← b.length_seats]
      exact h.numbered.call?_new (Steady.mem_exchangeList hy)
    have hwelcome : (b.welcome i).switchboard.Expects :=
      h.expects.alterExchange i.exchange fun y hy hexpects => hexpects.receive (hnew y hy)
    exact hwelcome.stays (works_comeIn b i x).stays

theorem Ready.move (h : b.Ready) (hmove : b.Move b') : b'.Ready := by
  refine ⟨?_, h.numbered.comes (comes_of_move hmove)⟩
  cases hmove with
  | start p => exact h.expects.turns (p.turns_start b.switchboard)
  | shutdown p => exact h.expects.turns (p.turns_shutdown b.switchboard)
  | publish p id event => exact h.expects_act (.publish p id event)
  | handle element event => exact h.expects_act (.handle element event)
  | receive exchange m => exact h.expects_act (.receive exchange m)
  | forward forwarder event => exact h.expects_act (.forward forwarder event)
  | advance seconds => exact h.expects_act (.advance seconds)
  | openGate gate => exact h.expects_act (.openGate gate)
  | closePool => exact h.expects_act .closePool
  | prepare answer => exact h.expects_act (.prepare answer)
  | giveUp =>
    unfold giveUp
    split
    · exact h.expects
    · exact h.expects

theorem Ready.hangUp (h : b.Ready) (n : Nat) (id : String) :
    (b.alterExchange n (·.hangUp id)).Ready where
  expects := h.expects.alterExchange n fun _ _ hexpects => hexpects.hangUp id
  numbered := by
    intro x' hx' id' hid'
    obtain ⟨m, hm⟩ := List.getElem?_of_mem hx'
    obtain ⟨x, hx, rfl⟩ := Switchboard.exchange?_modify rfl hm
    have hids : (if n = m then x.hangUp id else x).ids = x.ids := by
      split
      · exact x.ids_alter id fun _ => rfl
      · rfl
    exact h.numbered x (Steady.mem_exchangeList hx) id' (hids ▸ hid')

theorem ready_of_life (hnew : new? c files = some b₀) (hlife : b₀.Life b) : b.Ready := by
  induction hlife with
  | refl => exact ready_new hnew
  | tail _ hhappens ih =>
    cases hhappens with
    | move hmove => exact ih.move hmove
    | hangUp n id => exact ih.hangUp n id

/-! ## Events for a sink that answers requests -/

section Responding

variable {s : ResponseSink} {event : Event}

/-- The id of the request that an event is to answer. -/
def idFor (s : ResponseSink) (event : Event) : String := Template.render s.config.messageId event

/-- What becomes of an event for a sink that answers requests. -/
inductive Responds (b : Bridge) (s : ResponseSink) (event : Event) :
    Bridge × Except Fault Published → Prop
  | refused (fault : Fault) : Responds b s event (b, .error fault)
  | noId : idFor s event = "" →
      Responds b s event (b.count (.eventsDropped .missingMessageId), .ok (.replied false))
  | noSource : idFor s event ≠ "" →
      b.switchboard.exchanges.lookup? (.plain s.config.sourceId) = none →
      Responds b s event (b.count (.lookupMisses s.config.sourceId), .ok (.replied false))
  | notParked (l : Listener Nat) : idFor s event ≠ "" →
      b.switchboard.exchanges.lookup? (.plain s.config.sourceId) = some l →
      (∀ x, b.switchboard.exchange? l.handler = some x → idFor s event ∉ x.parked) →
      Responds b s event (b.count (.lookupMisses s.config.sourceId), .ok (.replied false))
  /-- The client has hung up. -/
  | gone (l : Listener Nat) (x : Exchange) (b' : Bridge) : idFor s event ≠ "" →
      b.switchboard.exchanges.lookup? (.plain s.config.sourceId) = some l →
      b.switchboard.exchange? l.handler = some x → idFor s event ∈ x.parked →
      (x.call? (idFor s event)).any Call.isThere = false →
      Responds b s event (b', .ok (.replied false))
  | taken (l : Listener Nat) (hs : List Header) (fields : List HeaderField) (b' : Bridge) :
      b.switchboard.exchanges.lookup? (.plain s.config.sourceId) = some l →
      readFor Listing.read s.headers? s.config.headers event = .ok hs →
      Block.Serves hs s.config.mapping? (Octets.ofString event.payload).length fields →
      b.Answers l.handler (idFor s event)
        ⟨s.config.status, fields, Octets.ofString event.payload⟩ b' →
      Responds b s event (b', .ok (.replied true))

/-- What a sink makes of an event. -/
theorem reply?_eq_ok {answer? : Option (String × Reply)} (h : s.reply? event = .ok answer?) :
    answer? = none ∧ idFor s event = "" ∨
      idFor s event ≠ "" ∧ ∃ hs fields,
        readFor Listing.read s.headers? s.config.headers event = .ok hs ∧
        Block.Serves hs s.config.mapping? (Octets.ofString event.payload).length fields ∧
        answer? = some (idFor s event,
          ⟨s.config.status, fields, Octets.ofString event.payload⟩) := by
  unfold ResponseSink.reply? at h
  rw [← idFor] at h
  by_cases hid : (idFor s event).isEmpty = true
  · simp only [hid, if_true] at h
    cases h
    exact .inl ⟨rfl, String.isEmpty_iff.1 hid⟩
  · simp only [hid] at h
    obtain ⟨hs, hread, h⟩ := exists_of_bind_eq_ok h
    obtain ⟨fields, hbuild, h⟩ := exists_of_bind_eq_ok h
    cases h
    exact .inr ⟨mt String.isEmpty_iff.2 hid, hs, fields, hread,
      Block.serves_of_build (Block.make_eq_ok_iff.1 hbuild).2, rfl⟩

/-- A reply that is taken at the exchange of a source changes nothing else. -/
theorem answers_alterExchange (h : b.Ready) {x : Exchange}
    (hx : b.switchboard.exchange? n = some x) (htaken : (x.reply id reply).2 = true) :
    b.Answers n id reply (b.alterExchange n fun x => (x.reply id reply).1) where
  exchange := by
    refine ⟨x, (x.reply id reply).1, hx, ?_, Exchange.answers_reply (h.expects n x hx) htaken⟩
    rw [exchange?_alterExchange, hx]
    simp
  others := by
    intro m hm
    rw [exchange?_alterExchange]
    cases b.switchboard.exchange? m with
    | none => rfl
    | some y => simp [hm.symm]
  rest := ⟨_, rfl⟩

/-- **An event for a sink that answers requests** is refused, misses its request, or answers it. -/
theorem responds_respond (h : b.Ready) (s : ResponseSink) (event : Event) :
    b.Responds s event (b.respond s event) := by
  unfold respond
  cases hreply : s.reply? event with
  | error fault => exact .refused fault
  | ok answer? =>
    rcases reply?_eq_ok hreply with ⟨rfl, hid⟩ | ⟨hid, hs, fields, hread, hserves, rfl⟩
    · exact .noId hid
    · dsimp only [give]
      unfold answer
      cases hl : b.switchboard.exchanges.lookup? (.plain s.config.sourceId) with
      | none => exact .noSource hid hl
      | some l =>
        dsimp only
        cases hx : b.switchboard.exchange? l.handler with
        | none =>
          rw [alterExchange_eq_self fun x hx' => nomatch hx.symm.trans hx']
          exact .notParked l hid hl fun x hx' => nomatch hx.symm.trans hx'
        | some x =>
          rw [Option.any_some]
          cases hparked : x.isParked (idFor s event) with
          | false =>
            have hnone := Exchange.reply_of_not_isParked hparked
            have hself : (b.alterExchange l.handler fun x => (x.reply (idFor s event)
                ⟨s.config.status, fields, Octets.ofString event.payload⟩).1) = b := by
              apply alterExchange_eq_self
              intro y hy
              cases hx.symm.trans hy
              rw [hnone]
            rw [hself, hnone]
            refine .notParked l hid hl fun y hy hmem => ?_
            cases hx.symm.trans hy
            rw [← Exchange.isParked_iff, hparked] at hmem
            cases hmem
          | true =>
            rw [Exchange.reply_snd hparked]
            cases hthere : (x.call? (idFor s event)).any Call.isThere with
            | false =>
              exact .gone l x _ hid hl hx ((x.isParked_iff _).1 hparked) hthere
            | true =>
              have htaken := (Exchange.reply_snd hparked
                ⟨s.config.status, fields, Octets.ofString event.payload⟩).trans hthere
              exact .taken l hs fields _ hl hread hserves (answers_alterExchange h hx htaken)

/-- No request can be answered with the event: it has no id, there is no source, or the id is not
parked there. -/
def Misses (b : Bridge) (s : ResponseSink) (event : Event) : Prop :=
  idFor s event = "" ∨ b.switchboard.exchanges.lookup? (.plain s.config.sourceId) = none ∨
    ∃ l, b.switchboard.exchanges.lookup? (.plain s.config.sourceId) = some l ∧
      ∀ x, b.switchboard.exchange? l.handler = some x → idFor s event ∉ x.parked

/-- What each of the ways leaves alone. -/
theorem Responds.frame {result : Bridge × Except Fault Published} (h : b.Responds s event result) :
    (∀ fault, result.2 = .error fault → result.1 = b) ∧
    ∀ taken, result.2 = .ok (.replied taken) →
      (taken = false → b.Misses s event → ∃ series, result.1 = b.count series) ∧
      (taken = true → ∃ l hs fields,
        b.switchboard.exchanges.lookup? (.plain s.config.sourceId) = some l ∧
        readFor Listing.read s.headers? s.config.headers event = .ok hs ∧
        Block.Serves hs s.config.mapping? (Octets.ofString event.payload).length fields ∧
        b.Answers l.handler (idFor s event)
          ⟨s.config.status, fields, Octets.ofString event.payload⟩ result.1) := by
  cases h with
  | refused fault => exact ⟨fun _ _ => rfl, nofun⟩
  | noId | noSource | notParked =>
    refine ⟨nofun, fun taken htaken => ?_⟩
    cases htaken
    exact ⟨fun _ _ => ⟨_, rfl⟩, nofun⟩
  | gone l x b' hid hl hx hparked hgone =>
    refine ⟨nofun, fun taken htaken => ?_⟩
    cases htaken
    refine ⟨fun _ hmisses => ?_, nofun⟩
    rcases hmisses with hnone | hnone | ⟨l', hl', hnone⟩
    · exact absurd hnone hid
    · cases hl.symm.trans hnone
    · cases hl.symm.trans hl'
      exact absurd hparked (hnone x hx)
  | taken l hs fields b' hl hread hserves hanswers =>
    refine ⟨nofun, fun taken htaken => ?_⟩
    cases htaken
    exact ⟨nofun, fun _ => ⟨l, hs, fields, hl, hread, hserves, hanswers⟩⟩

end Responding

/-! ## Events for any sink -/

/-- A request sink refuses an event before anything else, and otherwise sends it. -/
theorem send_cases (b : Bridge) (s : RequestSink) (event : Event) :
    (∃ fault, b.send s event = (b, .error fault)) ∨
      ∃ b' m, b.send s event = (b', .ok (.sent m)) := by
  unfold send
  cases s.request event with
  | error fault => exact .inl ⟨fault, rfl⟩
  | ok request =>
    right
    dsimp only [post]
    split
    · exact ⟨_, _, rfl⟩
    · split
      · exact ⟨_, _, rfl⟩
      · exact ⟨_, _, rfl⟩

/-- What becomes of a publication: it is refused, the event is sent, or it is one for a sink that
answers requests. -/
theorem publish_cases (b : Bridge) (p : Pipeline) (id : String) (event : Event) :
    (∃ fault, b.publish p id event = (b, .error fault)) ∨
      (∃ b' m, b.publish p id event = (b', .ok (.sent m))) ∨
      ∃ element s, p.sink id = .ok element ∧ element.part = .responseSink s ∧
        b.publish p id event = b.respond s event := by
  unfold publish
  cases hsink : p.sink id with
  | error fault => exact .inl ⟨fault, rfl⟩
  | ok element =>
    dsimp only
    unfold handle
    split
    · rename_i s _
      split
      · rcases b.send_cases s event with hrefused | hsent
        · exact .inl hrefused
        · exact .inr (.inl hsent)
      · exact .inl ⟨_, rfl⟩
    · rename_i s hs
      split
      · exact .inr (.inr ⟨element, s, rfl, hs, rfl⟩)
      · exact .inl ⟨_, rfl⟩
    · exact .inl ⟨_, rfl⟩

/-- **What a publication does to a bridge**, in whatever state the bridge is. A publication that
fails leaves the whole bridge as it was. One for a sink that answers requests, if no request can be
answered with the event, moves one counter and leaves the rest as it was. If its reply is taken,
then exactly one parked id was taken out, that of the event, at the exchange that the source is
registered with; its call is answered with the reply, or keeps it until it hears of its job. The
reply has the status that was configured, the headers that were built, a content length among them
that is the number of bytes, and the bytes of the event. All else is as it was. -/
theorem published_of_life (hnew : new? c files = some b₀) (hlife : b₀.Life b) (p : Pipeline)
    (id : String) (event : Event) :
    (∀ fault, (b.publish p id event).2 = .error fault → (b.publish p id event).1 = b) ∧
    ∀ taken, (b.publish p id event).2 = .ok (.replied taken) →
      ∃ element s, p.sink id = .ok element ∧ element.part = .responseSink s ∧
        (taken = false → b.Misses s event →
          ∃ series, (b.publish p id event).1 = b.count series) ∧
        (taken = true → ∃ l hs fields,
          b.switchboard.exchanges.lookup? (.plain s.config.sourceId) = some l ∧
          readFor Listing.read s.headers? s.config.headers event = .ok hs ∧
          Block.Serves hs s.config.mapping? (Octets.ofString event.payload).length fields ∧
          b.Answers l.handler (idFor s event)
            ⟨s.config.status, fields, Octets.ofString event.payload⟩
            (b.publish p id event).1) := by
  rcases b.publish_cases p id event with ⟨fault, hrefused⟩ | ⟨b', m, hsent⟩ |
    ⟨element, s, hsink, hpart, hrespond⟩
  · rw [hrefused]
    exact ⟨fun _ _ => rfl, nofun⟩
  · rw [hsent]
    exact ⟨nofun, nofun⟩
  · rw [hrespond]
    obtain ⟨hrefused, hreplied⟩ := (responds_respond (ready_of_life hnew hlife) s event).frame
    exact ⟨hrefused, fun taken htaken => ⟨element, s, hsink, hpart, hreplied taken htaken⟩⟩

/-- A request waits at the desk, and an event for the sink answers it. -/
theorem published_of_life_desk :
    ∃ b₀ p b' s l fields, new? Pipeline.deskAlone .empty = some b₀ ∧ Pipeline.builtDesk = .ok p ∧
      b₀.Life (p.inquired b₀) ∧
      (p.inquired b₀).publish (b₀.start p).2.1 "orders" Pipeline.refusal =
        (b', .ok (.replied true)) ∧
      (p.inquired b₀).switchboard.exchanges.lookup? (.plain s.config.sourceId) = some l ∧
      Block.values fields Block.contentLengthName = [Octets.ofString "4"] ∧
      (p.inquired b₀).Answers l.handler (idFor s Pipeline.refusal)
        ⟨s.config.status, fields, Octets.ofString "none"⟩ b' := by
  have htaken : (Pipeline.builtDesk.toOption.bind fun p =>
      (new? Pipeline.deskAlone .empty).map fun b₀ =>
        ((p.inquired b₀).publish (b₀.start p).2.1 "orders" Pipeline.refusal).2) =
      some (.ok (.replied true)) := by
    decide +kernel
  obtain ⟨p, hp, htaken⟩ := Option.bind_eq_some_iff.1 htaken
  obtain ⟨b₀, hnew, htaken⟩ := Option.map_eq_some_iff.1 htaken
  have hbuilt : Pipeline.builtDesk = .ok p := by
    cases hb : Pipeline.builtDesk with
    | error fault =>
      rw [hb] at hp
      cases hp
    | ok q =>
      rw [hb] at hp
      cases hp
      rfl
  have hlife : b₀.Life (p.inquired b₀) :=
    (Relation.ReflTransGen.single (.move (.start p))).tail
      (.move (.receive 0 Pipeline.inquiry))
  obtain ⟨-, hreplied⟩ :=
    published_of_life hnew hlife (b₀.start p).2.1 "orders" Pipeline.refusal
  obtain ⟨element, s, -, -, -, hanswers⟩ := hreplied true htaken
  obtain ⟨l, hs, fields, hl, -, hserves, hanswers⟩ := hanswers rfl
  have hlength : toString (Octets.ofString Pipeline.refusal.payload).length = "4" := by
    decide +kernel
  refine ⟨b₀, p, _, s, l, fields, hnew, hbuilt, hlife, Prod.ext rfl htaken, hl, ?_, hanswers⟩
  rw [hserves.length, hlength]

end Bridge

end Correlator
