import Correlator.Client
import Correlator.Proofs.Bodies

/-!
# Bodies that are relayed

The body of a response is handed on by a relay. Its reader polls it: the relay looks at what has
arrived, and then at the clock, and it remembers nothing but whether it has told already why the
body breaks off. What a reader gets in this way is what `Client.bounded` says, and nobody can take
a part of a body for the whole.

* `Upstream`: what arrives, without an end if need be; `Upstream.Front`: as much of it as counts.
* `Relay`, `Relay.poll`: a relay, and the answer to one poll.
* `Relay.Reading`: what a reader gets that goes on polling.
* `Relay.Due`: what is still to come from a relay; `Relay.Due.poll`: a poll takes the first piece
  of it.
* `Relay.reading_iff`: a reader gets what is due, and there is always something that it gets.
* `Client.chunksInTime`, `Client.EndsInTime`: the chunks that arrive before the deadline and before
  anything else, and that the end arrives then too.
* **`Client.relayed`**: what a reader gets, and what becomes of the payload.
-/

namespace Correlator

namespace Client

variable {c : ClientConfig} {r : Request} {deadline time : Nat} {rest : List (Nat × Arrival)}

theorem bounded_late (arrival : Arrival) (h : deadline ≤ time) :
    bounded c r deadline ((time, arrival) :: rest) = [.broken (.fault (lateBody c r))] := by
  cases arrival <;> simp [bounded, h]

theorem bounded_chunk (bs : Octets) (h : time < deadline) :
    bounded c r deadline ((time, .chunk bs) :: rest) = .chunk bs :: bounded c r deadline rest := by
  simp [bounded, Nat.not_le.2 h]

theorem bounded_failure (reason : String) (h : time < deadline) :
    bounded c r deadline ((time, .failure reason) :: rest) =
      [.broken (.fault (brokenBody r reason))] := by
  simp [bounded, Nat.not_le.2 h]

theorem bounded_finish (h : time < deadline) :
    bounded c r deadline ((time, .finish) :: rest) = [] := by
  simp [bounded, Nat.not_le.2 h]

end Client

/-- What arrives of a body, each part with its time, and nothing more after the first gap. -/
abbrev Upstream := Nat → Option (Nat × Arrival)

namespace Upstream

/-- What is still to arrive after the first part. -/
def tail (up : Upstream) : Upstream := fun n => up (n + 1)

/-- The parts of a body up to one that never comes or comes too late. -/
inductive Front (deadline : Nat) : Upstream → List (Nat × Arrival) → Prop
  | nil {up : Upstream} (h : ∀ a ∈ up 0, deadline ≤ a.1) : Front deadline up []
  | cons {up : Upstream} {a : Nat × Arrival} {rest : List (Nat × Arrival)} (h : up 0 = some a)
    (hrest : Front deadline up.tail rest) : Front deadline up (a :: rest)

/-- A list of parts after which nothing ever comes. -/
def ofList (arrivals : List (Nat × Arrival)) : Upstream := fun n => arrivals[n]?

theorem front_ofList (deadline : Nat) (arrivals : List (Nat × Arrival)) :
    Front deadline (ofList arrivals) arrivals := by
  induction arrivals with
  | nil => exact .nil fun a ha => nomatch ha
  | cons a rest ih => exact .cons rfl ih

/-- There are such parts, unless there is no end to what comes in time. -/
theorem exists_front {deadline : Nat} (n : Nat) {up : Upstream}
    (h : ∀ a ∈ up n, deadline ≤ a.1) : ∃ arrivals, up.Front deadline arrivals := by
  induction n generalizing up with
  | zero => exact ⟨[], .nil h⟩
  | succ n ih =>
    have htail : ∀ a ∈ up.tail n, deadline ≤ a.1 := h
    obtain ⟨arrivals, hrest⟩ := ih htail
    cases hup : up 0 with
    | none => exact ⟨[], .nil fun a ha => nomatch hup.symm.trans ha⟩
    | some a => exact ⟨a :: arrivals, .cons hup hrest⟩

end Upstream

/-- What hands on the body of a response. -/
inductive Relay
  /-- It listens for what is still to arrive. -/
  | listening (up : Upstream)
  /-- It has told why the body breaks off. -/
  | spent

/-- The answer to a poll. -/
inductive Polled
  | pending
  | piece (p : Piece) (next : Relay)
  | ended

namespace Relay

variable (c : ClientConfig) (r : Request) (deadline : Nat)

/-- The first part, if it is there at a time: what arrived before it is. -/
def arrived? (up : Upstream) (now : Nat) : Option Arrival :=
  match up 0 with
  | some (time, arrival) => if time < now then some arrival else none
  | none => none

/-- The answer to a poll at a time: what has arrived comes before the deadline. -/
def poll (now : Nat) : Relay → Polled
  | .spent => .ended
  | .listening up =>
    match arrived? up now with
    | some (.chunk bs) => .piece (.chunk bs) (.listening up.tail)
    | some (.failure reason) => .piece (.broken (.fault (Client.brokenBody r reason))) .spent
    | some .finish => .ended
    | none =>
      if deadline ≤ now then .piece (.broken (.fault (Client.lateBody c r))) .spent
      else .pending

/-- The time by which a reader that waits is waked. -/
def wake (up : Upstream) : Nat :=
  match up 0 with
  | some (time, _) => min (time + 1) deadline
  | none => deadline

/-- What a reader gets that goes on polling: again when it is waked, if not before, and after each
piece before the deadline has passed. -/
inductive Reading : Nat → Relay → Body → Prop
  | ended {now : Nat} {relay : Relay} (h : relay.poll c r deadline now = .ended) :
    Reading now relay []
  | piece {now later : Nat} {relay next : Relay} {p : Piece} {body : Body}
    (h : relay.poll c r deadline now = .piece p next) (hnow : now ≤ later)
    (hlater : later ≤ deadline) (hrest : Reading later next body) : Reading now relay (p :: body)
  | wait {now later : Nat} {up : Upstream} {body : Body}
    (h : (listening up).poll c r deadline now = .pending) (hnow : now < later)
    (hlater : later ≤ wake deadline up) (hrest : Reading later (.listening up) body) :
    Reading now (.listening up) body

/-- What is still to come from a relay. -/
inductive Due : Relay → Body → Prop
  | listening {up : Upstream} {arrivals : List (Nat × Arrival)} (h : up.Front deadline arrivals) :
    Due (.listening up) (Client.bounded c r deadline arrivals)
  | spent : Due .spent []

variable {c r deadline} {now later : Nat} {relay : Relay} {up : Upstream} {body : Body}
  {arrivals : List (Nat × Arrival)}

/-! ## One poll -/

theorem wake_le (up : Upstream) : wake deadline up ≤ deadline := by
  unfold wake
  split <;> omega

theorem arrived?_eq_some {arrival : Arrival} (h : arrived? up now = some arrival) :
    ∃ time, up 0 = some (time, arrival) ∧ time < now := by
  unfold arrived? at h
  split at h
  case h_1 time arrival' hup =>
    split at h
    · cases h
      exact ⟨time, hup, ‹_›⟩
    · nomatch h
  case h_2 => nomatch h

/-- A reader that waits is waked later on. -/
theorem lt_wake (h : arrived? up now = none) (hnow : now < deadline) : now < wake deadline up := by
  unfold arrived? at h
  unfold wake
  cases hup : up 0 with
  | none => exact hnow
  | some a =>
    have htime : ¬ a.1 < now := by simpa [hup] using h
    simp only
    omega

/-- Once it is waked there is something for it. -/
theorem poll_wake_ne_pending (up : Upstream) :
    (listening up).poll c r deadline (wake deadline up) ≠ .pending := by
  cases hseen : arrived? up (wake deadline up) with
  | some arrival => cases arrival <;> simp [poll, hseen]
  | none =>
    have hlate : deadline ≤ wake deadline up :=
      Nat.le_of_not_lt fun hwake => Nat.lt_irrefl _ (lt_wake hseen hwake)
    simp [poll, hseen, hlate]

/-- Where nothing is there at the deadline, the body is late. -/
theorem bounded_of_none (h : up.Front deadline arrivals) (hseen : arrived? up deadline = none) :
    Client.bounded c r deadline arrivals = [.broken (.fault (Client.lateBody c r))] := by
  cases h with
  | nil => rfl
  | @cons _ a rest h hrest =>
    obtain ⟨time, arrival⟩ := a
    have htime : deadline ≤ time := by simpa [arrived?, h] using hseen
    exact Client.bounded_late arrival htime

/-- **What a poll does**, not after the deadline: it ends the body where nothing is due, takes the
first piece of what is due, or leaves the reader to wait. -/
theorem Due.poll (h : Due c r deadline relay body) (hnow : now ≤ deadline) :
    (relay.poll c r deadline now = .ended ∧ body = []) ∨
    (∃ p next rest, relay.poll c r deadline now = .piece p next ∧ body = p :: rest ∧
      Due c r deadline next rest) ∨
    (∃ up, relay = .listening up ∧ relay.poll c r deadline now = .pending ∧
      now < wake deadline up) := by
  cases h with
  | spent => exact .inl ⟨rfl, rfl⟩
  | @listening up arrivals h =>
    cases hseen : arrived? up now with
    | none =>
      by_cases hlate : deadline ≤ now
      · obtain rfl : now = deadline := Nat.le_antisymm hnow hlate
        exact .inr (.inl ⟨_, _, _, by simp [Relay.poll, hseen], bounded_of_none h hseen, .spent⟩)
      · exact .inr (.inr ⟨up, rfl, by simp [Relay.poll, hseen, hlate],
          lt_wake hseen (Nat.lt_of_not_le hlate)⟩)
    | some arrival =>
      obtain ⟨time, hup, htime⟩ := arrived?_eq_some hseen
      cases h with
      | nil hlate =>
        have hlate := hlate _ hup
        simp only at hlate
        omega
      | @cons _ a rest h hrest =>
        obtain rfl : a = (time, arrival) := Option.some_inj.1 (h.symm.trans hup)
        have htime : time < deadline := by omega
        cases arrival with
        | chunk bs =>
          exact .inr (.inl ⟨.chunk bs, _, _, by rw [Relay.poll, hseen],
            Client.bounded_chunk bs htime, .listening hrest⟩)
        | failure reason =>
          exact .inr (.inl ⟨.broken (.fault (Client.brokenBody r reason)), _, _,
            by rw [Relay.poll, hseen], Client.bounded_failure reason htime, .spent⟩)
        | finish => exact .inl ⟨by rw [Relay.poll, hseen], Client.bounded_finish htime⟩

/-! ## All that a reader gets -/

/-- A reader gets nothing but what is due. -/
theorem Reading.eq (h : Reading c r deadline now relay body) {due : Body}
    (hdue : Due c r deadline relay due) (hnow : now ≤ deadline) : body = due := by
  induction h generalizing due with
  | ended h =>
    obtain ⟨-, rfl⟩ | ⟨p, next, rest, hpoll, -⟩ | ⟨up, -, hpoll, -⟩ := hdue.poll hnow
    · rfl
    · cases h.symm.trans hpoll
    · cases h.symm.trans hpoll
  | piece h hle hlater hrest ih =>
    obtain ⟨hpoll, -⟩ | ⟨p, next, rest, hpoll, rfl, hdue⟩ | ⟨up, -, hpoll, -⟩ := hdue.poll hnow
    · cases h.symm.trans hpoll
    · cases h.symm.trans hpoll
      rw [ih hdue hlater]
    · cases h.symm.trans hpoll
  | wait h hlt hlater hrest ih => exact ih hdue (Nat.le_trans hlater (wake_le _))

/-- A reader gets what is due if it gets what is due after the first piece. It waits once at most
before that piece. -/
theorem Due.reading_of_rest (h : Due c r deadline relay body) (hnow : now ≤ deadline)
    (hrest : ∀ p rest, body = p :: rest → ∀ next later, Due c r deadline next rest →
      later ≤ deadline → Reading c r deadline later next rest) :
    Reading c r deadline now relay body := by
  have hready (later : Nat) (hlater : later ≤ deadline)
      (hpoll : relay.poll c r deadline later ≠ .pending) :
      Reading c r deadline later relay body := by
    obtain ⟨hended, rfl⟩ | ⟨p, next, rest, hpiece, rfl, hdue⟩ | ⟨up, -, hpending, -⟩ :=
      h.poll hlater
    · exact .ended hended
    · exact .piece hpiece (Nat.le_refl later) hlater (hrest p rest rfl next later hdue hlater)
    · exact absurd hpending hpoll
  obtain ⟨hended, -⟩ | ⟨p, next, rest, hpiece, -⟩ | ⟨up, rfl, hpending, hwake⟩ := h.poll hnow
  · exact hready now hnow (by simp [hended])
  · exact hready now hnow (by simp [hpiece])
  · exact .wait hpending hwake (Nat.le_refl _)
      (hready _ (wake_le up) (poll_wake_ne_pending up))

/-- There is a reader that gets what is due. -/
theorem Due.reading (h : Due c r deadline relay body) (hnow : now ≤ deadline) :
    Reading c r deadline now relay body := by
  induction body generalizing relay now with
  | nil => exact h.reading_of_rest hnow fun p rest hbody => nomatch hbody
  | cons p rest ih =>
    refine h.reading_of_rest hnow fun p' rest' hbody next later hdue hlater => ?_
    cases hbody
    exact ih hdue hlater

/-- **A reader gets what is due**, and nothing else. -/
theorem reading_iff (h : up.Front deadline arrivals) (hnow : now ≤ deadline) :
    Reading c r deadline now (.listening up) body ↔
      body = Client.bounded c r deadline arrivals := by
  constructor
  · exact fun hreading => hreading.eq (.listening h) hnow
  · rintro rfl
    exact Due.reading (.listening h) hnow

end Relay

/-! ## Chunks that arrive in time -/

/-- The bytes of a chunk. -/
def Arrival.chunk? : Arrival → Option Octets
  | .chunk bs => some bs
  | _ => none

namespace Body

theorem bytes_map_chunk (chunks : List Octets) :
    bytes (chunks.map .chunk) = chunks.flatten := by
  induction chunks with
  | nil => rfl
  | cons bs chunks ih => exact congrArg (bs ++ ·) ih

theorem whole_map_chunk (chunks : List Octets) : Whole (chunks.map .chunk) := by
  intro e he
  obtain ⟨bs, -, h⟩ := List.mem_map.1 he
  nomatch h

end Body

namespace Client

/-- What arrives before the deadline. -/
def inTime (deadline : Nat) (arrivals : List (Nat × Arrival)) : List Arrival :=
  (arrivals.takeWhile fun a => a.1 < deadline).map (·.2)

/-- The chunks that arrive before the deadline and before anything else. -/
def chunksInTime (deadline : Nat) (arrivals : List (Nat × Arrival)) : List Octets :=
  ((inTime deadline arrivals).takeWhile fun a => a.chunk?.isSome).filterMap Arrival.chunk?

/-- What arrives before the deadline and is no chunk, the first of it. -/
def closing? (deadline : Nat) (arrivals : List (Nat × Arrival)) : Option Arrival :=
  (inTime deadline arrivals).find? fun a => a.chunk?.isNone

/-- The end of the body arrives before the deadline, and no failure before it. -/
def EndsInTime (deadline : Nat) (arrivals : List (Nat × Arrival)) : Prop :=
  closing? deadline arrivals = some .finish

/-- What comes after the chunks. -/
def closing (c : ClientConfig) (r : Request) : Option Arrival → Body
  | some .finish => []
  | some (.failure reason) => [.broken (.fault (brokenBody r reason))]
  | _ => [.broken (.fault (lateBody c r))]

instance (deadline : Nat) (arrivals : List (Nat × Arrival)) :
    Decidable (EndsInTime deadline arrivals) := inferInstanceAs (Decidable (_ = _))

variable {c : ClientConfig} {r : Request} {deadline : Nat} {arrivals : List (Nat × Arrival)}

/-- The chunks that arrive in time, and what comes after them. -/
theorem bounded_eq : bounded c r deadline arrivals =
    (chunksInTime deadline arrivals).map .chunk ++ closing c r (closing? deadline arrivals) := by
  induction arrivals with
  | nil => rfl
  | cons a rest ih =>
    obtain ⟨time, arrival⟩ := a
    by_cases htime : time < deadline
    · have hcons : inTime deadline ((time, arrival) :: rest) = arrival :: inTime deadline rest := by
        simp [inTime, htime]
      cases arrival with
      | chunk bs =>
        rw [bounded_chunk bs htime, ih]
        simp [chunksInTime, closing?, hcons, Arrival.chunk?]
      | failure reason =>
        rw [bounded_failure reason htime]
        simp [chunksInTime, closing?, hcons, Arrival.chunk?, closing]
      | finish =>
        rw [bounded_finish htime]
        simp [chunksInTime, closing?, hcons, Arrival.chunk?, closing]
    · have hnil : inTime deadline ((time, arrival) :: rest) = [] := by simp [inTime, htime]
      rw [bounded_late arrival (Nat.le_of_not_lt htime)]
      simp [chunksInTime, closing?, hnil, closing]

/-- A body that does not end in time ends in one lost connection. -/
theorem closing_eq {closing? : Option Arrival} (h : closing? ≠ some .finish) :
    ∃ reason, closing c r closing? = [.broken (.fault (.unavailable r.url.text reason))] := by
  rcases closing? with _ | ⟨bs | reason | _⟩
  · exact ⟨_, rfl⟩
  · exact ⟨_, rfl⟩
  · exact ⟨_, rfl⟩
  · exact absurd rfl h

/-- **What a reader gets of a body.** It is the chunks that arrive before the deadline and before
anything else; then it ends, if the end arrives in time, or breaks off with one lost connection that
names the URL. In that case the body has no payload, whatever arrived of it, and what arrived within
the limit does not hide the lost connection. -/
theorem relayed (c : ClientConfig) (r : Request) {start deadline : Nat} {up : Upstream}
    {arrivals : List (Nat × Arrival)} (hstart : start ≤ deadline)
    (hfront : up.Front deadline arrivals) :
    (∀ body, Relay.Reading c r deadline start (.listening up) body ↔
      body = bounded c r deadline arrivals) ∧
    (EndsInTime deadline arrivals →
      bounded c r deadline arrivals = (chunksInTime deadline arrivals).map .chunk) ∧
    (¬ EndsInTime deadline arrivals → ∃ reason,
      bounded c r deadline arrivals = (chunksInTime deadline arrivals).map .chunk ++
        [.broken (.fault (.unavailable r.url.text reason))] ∧
      ∀ limit, (∀ payload, (bounded c r deadline arrivals).payload limit ≠ .ok payload) ∧
        ((chunksInTime deadline arrivals).flatten.length ≤ limit →
          (bounded c r deadline arrivals).payload limit =
            .error (.unavailable r.url.text reason))) := by
  refine ⟨fun body => Relay.reading_iff hfront hstart, fun h => ?_, fun h => ?_⟩
  · rw [bounded_eq, h, closing, List.append_nil]
  · obtain ⟨reason, hclosing⟩ := closing_eq (c := c) (r := r) h
    rw [bounded_eq, hclosing]
    refine ⟨reason, rfl, fun limit => ⟨fun payload hok => ?_, fun hlimit => ?_⟩⟩
    · have hwhole := ((Body.payload_eq_ok_iff _ limit payload).1 hok).1
      exact hwhole _ (List.mem_append_right _ (List.mem_singleton_self _))
    · rw [← Body.bytes_map_chunk] at hlimit
      exact Body.payload_of_broken (Body.whole_map_chunk _) hlimit _ []

/-- A request for the hours. -/
def hours : Request :=
  ⟨"GET", ⟨['h', 't', 't', 'p'], [], [], some (.name ['b', 'e', 'l', 'l']), none,
    .steps [['x']], none, none⟩, [], []⟩

/-- A byte each second, without an end. -/
def ticking : Upstream := fun n => some (n, .chunk [0x2E])

/-- Of a body without an end a reader gets what arrives in time and one lost connection; of one that
ends in time it gets all. -/
theorem relayed_ticking :
    (∃ reason, Relay.Reading {} hours 2 0 (.listening ticking)
        [.chunk [0x2E], .chunk [0x2E], .broken (.fault (.unavailable "http://bell/x" reason))] ∧
      Body.payload [.chunk [0x2E], .chunk [0x2E],
        .broken (.fault (.unavailable "http://bell/x" reason))] 2 =
          .error (.unavailable "http://bell/x" reason)) ∧
    Relay.Reading {} hours 3 1 (.listening (.ofList [(0, .chunk [0x2E]), (2, .finish)]))
      [.chunk [0x2E]] := by
  have hfront : ticking.Front 2 [(0, .chunk [0x2E]), (1, .chunk [0x2E])] :=
    .cons rfl (.cons rfl (.nil fun a ha => by cases ha; decide))
  have hurl : hours.url.text = "http://bell/x" := by decide +kernel
  constructor
  · obtain ⟨hread, -, hlost⟩ := relayed {} hours (Nat.zero_le 2) hfront
    obtain ⟨reason, hbody, hpayload⟩ := hlost (by decide)
    rw [hurl] at hbody hpayload
    refine ⟨reason, (hread _).2 hbody.symm, ?_⟩
    have hreset := (hpayload 2).2 (by decide)
    rwa [hbody] at hreset
  · obtain ⟨hread, hended, -⟩ := relayed {} hours (show 1 ≤ 3 by decide)
      (Upstream.front_ofList 3 [(0, .chunk [0x2E]), (2, .finish)])
    exact (hread _).2 (hended (by decide)).symm

end Client

end Correlator
