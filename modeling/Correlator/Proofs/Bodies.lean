import Correlator.Body
import Correlator.Dispatch

/-!
# Bodies that are collected

A body has a payload if nothing breaks it off and it is not too long, and then the payload is made
of its bytes, whatever pieces these came in.

* `Body.bytes`, `Body.Whole`: the bytes of a body, and that it does not break off.
* `Intake.reads`: the payload that is read, from wherever the reading stands.
* **`Body.payload_eq_ok_iff`**: which bodies have a payload, and which one.
* `BodyError.CameOf`: an error is a lost connection, or it came of one.
* `Body.Overruns`: a body is too long before anything breaks it off.
* **`Body.payload_by_bytes`**: the payload of any body, or why it has none, by its bytes and its
  first error.
* `Dispatch.event?_run`: which requests become an event, and which one.
-/

namespace Correlator

namespace Body

/-- The bytes of a body. -/
def bytes (body : Body) : Octets :=
  body.flatMap fun
    | .chunk bs => bs
    | _ => []

/-- The body does not break off. -/
def Whole (body : Body) : Prop := ∀ e, .broken e ∉ body

theorem bytes_append (body body' : Body) : bytes (body ++ body') = body.bytes ++ body'.bytes :=
  List.flatMap_append

/-- A body is whole still with one piece more that is no error. -/
theorem Whole.snoc {body : Body} {p : Piece} (h : body.Whole) (hp : ∀ e, p ≠ .broken e) :
    Whole (body ++ [p]) := by
  intro e he
  rcases List.mem_append.1 he with he | he
  · exact h e he
  · exact hp e (List.mem_singleton.1 he).symm

theorem whole_cons (p : Piece) (rest : Body) :
    Whole (p :: rest) ↔ (∀ e, p ≠ .broken e) ∧ rest.Whole := by
  constructor
  · intro h
    exact ⟨fun e he => h e (he ▸ List.mem_cons_self), fun e he => h e (List.mem_cons_of_mem p he)⟩
  · rintro ⟨hp, hrest⟩ e he
    rcases List.mem_cons.1 he with he | he
    · exact hp e he.symm
    · exact hrest e he

instance decidableWhole : (body : Body) → Decidable body.Whole
  | [] => .isTrue fun _ => List.not_mem_nil
  | .broken e :: _ => .isFalse fun h => h e List.mem_cons_self
  | .chunk bs :: rest =>
    have := decidableWhole rest
    decidable_of_iff (Whole rest) ((whole_cons (.chunk bs) rest).trans (by simp)).symm
  | .gate name :: rest =>
    have := decidableWhole rest
    decidable_of_iff (Whole rest) ((whole_cons (.gate name) rest).trans (by simp)).symm

end Body

/-- The payload that was taken in. -/
def Taken.payload : Except Fault Taken → Except Fault String
  | .ok (.text payload) => .ok payload
  | .ok (.saved _) => .ok ""
  | .error e => .error e

namespace Intake

/-- Whether a chunk can be taken in is no matter of files. -/
theorem take_fst (i : Intake) (files files' : FileTree) (bs : Octets) :
    (i.take files bs).1 = (i.take files' bs).1 := by
  cases i with
  | collect chunks room =>
    simp only [take]
    split <;> rfl
  | save name written => rfl

/-- What is taken in is no matter of files. -/
theorem runThrough_fst (i : Intake) (files files' : FileTree) (body : Body) :
    (i.runThrough files body).1 = (i.runThrough files' body).1 := by
  induction body generalizing i files files' with
  | nil => rfl
  | cons piece rest ih =>
    cases piece with
    | chunk bs =>
      have htake := i.take_fst files files' bs
      simp only [runThrough]
      generalize i.take files bs = r at htake ⊢
      generalize i.take files' bs = r' at htake ⊢
      obtain ⟨taken, files₁⟩ := r
      obtain ⟨taken', files₂⟩ := r'
      cases htake
      cases taken with
      | ok i' => exact ih i' files₁ files₂
      | error e => rfl
    | broken e => rfl
    | gate name => exact ih i files files'

/-- The payload that comes of a reading and of the pieces that are still to come. -/
def reads (i : Intake) (rest : Body) : Except Fault String :=
  Taken.payload (i.runThrough .empty rest).1

theorem reads_chunk (i : Intake) (bs : Octets) (rest : Body) :
    i.reads (.chunk bs :: rest) =
      match (i.take .empty bs).1 with
      | .ok i' => i'.reads rest
      | .error e => .error e := by
  simp only [reads, runThrough]
  generalize i.take .empty bs = r
  obtain ⟨_ | i', files⟩ := r
  · rfl
  · exact congrArg Taken.payload (i'.runThrough_fst files .empty rest)

theorem reads_gate (i : Intake) (name : String) (rest : Body) :
    i.reads (.gate name :: rest) = i.reads rest := rfl

theorem reads_broken (i : Intake) (e : BodyError) (rest : Body) :
    i.reads (.broken e :: rest) = .error e.toFault := rfl

/-- What is read from a body that is collected, with so much room left. -/
theorem reads_collect (chunks : List Octets) (room : Nat) (body : Body) (payload : String) :
    (collect chunks room).reads body = .ok payload ↔
      body.Whole ∧ body.bytes.length ≤ room ∧
        Text.payloadText (chunks.reverse.flatten ++ body.bytes) = payload := by
  induction body generalizing chunks room with
  | nil => simp [reads, runThrough, Taken.payload, finish, Body.Whole, Body.bytes]
  | cons piece rest ih =>
    cases piece with
    | chunk bs =>
      rw [reads_chunk]
      have hbytes : Body.bytes (.chunk bs :: rest) = bs ++ Body.bytes rest := rfl
      by_cases hroom : room < bs.length
      · have hlong : ¬ bs.length + (Body.bytes rest).length ≤ room := by omega
        simp [take, hroom, hbytes, hlong]
      · have hfits : (Body.bytes rest).length ≤ room - bs.length ↔
            bs.length + (Body.bytes rest).length ≤ room := by omega
        simp only [take, if_neg hroom]
        rw [ih, hfits, hbytes, Body.whole_cons]
        simp
    | broken e => simp [reads_broken, Body.whole_cons]
    | gate name =>
      rw [reads_gate, ih, Body.whole_cons]
      simp [Body.bytes]

end Intake

/-- **A body has a payload just when nothing breaks it off and it is not too long.** -/
theorem Body.payload_eq_ok_iff (body : Body) (limit : Nat) (payload : String) :
    body.payload limit = .ok payload ↔
      body.Whole ∧ body.bytes.length ≤ limit ∧ Text.payloadText body.bytes = payload :=
  Intake.reads_collect [] limit body payload

/-! ## Bodies that are cut, or break off -/

/-- An error is a lost connection, or it came of one, however many errors wrap it. -/
inductive BodyError.CameOf (url reason : String) : BodyError → Prop
  | lost : CameOf url reason (.fault (.unavailable url reason))
  | wrapped (text : String) {cause : BodyError} (h : cause.CameOf url reason) :
    CameOf url reason (.wrapped text cause)

namespace BodyError

variable {url reason : String}

theorem lost?_eq_some_iff (e : BodyError) :
    e.lost? = some (url, reason) ↔ e.CameOf url reason := by
  constructor
  · intro h
    induction e with
    | other text => nomatch h
    | fault f =>
      cases f <;> cases h
      exact .lost
    | wrapped text cause ih => exact .wrapped text (ih h)
  · intro h
    induction h with
    | lost => rfl
    | wrapped text h ih => exact ih

theorem CameOf.toFault_eq {e : BodyError} (h : e.CameOf url reason) :
    e.toFault = .unavailable url reason := by
  rw [toFault, (lost?_eq_some_iff e).2 h]

theorem toFault_eq_payload {e : BodyError} (h : ∀ url reason, ¬ e.CameOf url reason) :
    e.toFault = .payload e.text := by
  cases hlost : e.lost? with
  | none => rw [toFault, hlost]
  | some lost => exact absurd ((lost?_eq_some_iff e).1 hlost) (h lost.1 lost.2)

end BodyError

namespace Intake

variable {chunks chunks' : List Octets} {room : Nat} {before : Body}

/-- Only the bytes collected count, not the chunks that they came in. -/
theorem reads_congr (h : chunks.reverse.flatten = chunks'.reverse.flatten) (room : Nat)
    (rest : Body) : (collect chunks room).reads rest = (collect chunks' room).reads rest := by
  induction rest generalizing chunks chunks' room with
  | nil => simp [reads, runThrough, Taken.payload, finish, h]
  | cons piece rest ih =>
    cases piece with
    | chunk bs =>
      rw [reads_chunk, reads_chunk]
      by_cases hroom : room < bs.length
      · simp [take, hroom]
      · simp only [take, if_neg hroom]
        exact ih (by simp [h]) _
    | broken e => rfl
    | gate name => exact ih h room

/-- Pieces that do not fit end the reading. -/
theorem reads_of_lt (hwhole : before.Whole) (hroom : room < before.bytes.length) (rest : Body) :
    (collect chunks room).reads (before ++ rest) = .error tooLong := by
  induction before generalizing chunks room with
  | nil => nomatch hroom
  | cons piece before ih =>
    obtain ⟨hpiece, hbefore⟩ := (Body.whole_cons _ _).1 hwhole
    rw [List.cons_append]
    cases piece with
    | chunk bs =>
      rw [reads_chunk]
      by_cases hbs : room < bs.length
      · simp [take, hbs]
      · have hlength : (Body.bytes (.chunk bs :: before)).length =
            bs.length + (Body.bytes before).length := List.length_append
        simp only [take, if_neg hbs]
        exact ih hbefore (by omega)
    | broken e => exact absurd rfl (hpiece e)
    | gate name => exact ih hbefore hroom

/-- Pieces that fit are read as one chunk of all their bytes. -/
theorem reads_of_le (hwhole : before.Whole) (hroom : before.bytes.length ≤ room) (rest : Body) :
    (collect chunks room).reads (before ++ rest) =
      (collect (before.bytes :: chunks) (room - before.bytes.length)).reads rest := by
  induction before generalizing chunks room with
  | nil => exact reads_congr (by simp [Body.bytes]) room rest
  | cons piece before ih =>
    obtain ⟨hpiece, hbefore⟩ := (Body.whole_cons _ _).1 hwhole
    rw [List.cons_append]
    cases piece with
    | chunk bs =>
      have hbytes : Body.bytes (.chunk bs :: before) = bs ++ Body.bytes before := rfl
      rw [hbytes, List.length_append] at hroom ⊢
      rw [reads_chunk]
      simp only [take, if_neg (show ¬ room < bs.length by omega)]
      rw [ih hbefore (by omega), Nat.sub_sub]
      exact reads_congr (by simp) _ rest
    | broken e => exact absurd rfl (hpiece e)
    | gate name => exact ih hbefore hroom

end Intake

namespace Body

variable {body body' before rest : Body} {limit : Nat}

theorem payload_of_lt (hwhole : before.Whole) (hlimit : limit < before.bytes.length)
    (rest : Body) : payload (before ++ rest) limit = .error Intake.tooLong :=
  Intake.reads_of_lt hwhole hlimit rest

/-- Pieces that fit count as one chunk of all their bytes. -/
theorem payload_of_le (hwhole : before.Whole) (hlimit : before.bytes.length ≤ limit)
    (rest : Body) : payload (before ++ rest) limit =
      (Intake.collect [before.bytes] (limit - before.bytes.length)).reads rest :=
  Intake.reads_of_le hwhole hlimit rest

theorem payload_of_broken (hwhole : before.Whole) (hlimit : before.bytes.length ≤ limit)
    (e : BodyError) (rest : Body) :
    payload (before ++ .broken e :: rest) limit = .error e.toFault :=
  payload_of_le hwhole hlimit (.broken e :: rest)

/-- Bodies of the same bytes have the same payload, whatever comes after them. -/
theorem payload_congr (hwhole : body.Whole) (hwhole' : body'.Whole)
    (hbytes : body.bytes = body'.bytes) (limit : Nat) (rest : Body) :
    payload (body ++ rest) limit = payload (body' ++ rest) limit := by
  by_cases hlimit : limit < body.bytes.length
  · rw [payload_of_lt hwhole hlimit, payload_of_lt hwhole' (hbytes ▸ hlimit)]
  · have hle := Nat.le_of_not_lt hlimit
    have hread := payload_of_le hwhole hle rest
    rw [hbytes] at hle hread
    exact hread.trans (payload_of_le hwhole' hle rest).symm

/-- A body that breaks off does so at a first error. -/
theorem exists_broken (h : ¬ body.Whole) :
    ∃ before e rest, body = before ++ .broken e :: rest ∧ Whole before := by
  induction body with
  | nil => exact absurd (fun _ => List.not_mem_nil) h
  | cons piece body ih =>
    by_cases hpiece : ∃ e, piece = .broken e
    · obtain ⟨e, rfl⟩ := hpiece
      exact ⟨[], e, body, rfl, fun _ => List.not_mem_nil⟩
    · have hpiece (e : BodyError) : piece ≠ .broken e := fun he => hpiece ⟨e, he⟩
      obtain ⟨before, e, rest, rfl, hbefore⟩ :=
        ih fun hwhole => h ((whole_cons _ _).2 ⟨hpiece, hwhole⟩)
      exact ⟨piece :: before, e, rest, rfl, (whole_cons _ _).2 ⟨hpiece, hbefore⟩⟩

/-- Some first pieces of a body are too long, with no error among them. -/
def Overruns (body : Body) (limit : Nat) : Prop :=
  ∃ before rest, body = before ++ rest ∧ before.Whole ∧ limit < before.bytes.length

/-- Nothing that comes after the first error counts. -/
theorem overruns_append_iff (hwhole : body.Whole) (hrest : ∀ p ∈ rest.head?, ∃ e, p = .broken e) :
    Overruns (body ++ rest) limit ↔ limit < body.bytes.length := by
  constructor
  · rintro ⟨before, after, h, hbefore, hlimit⟩
    obtain ⟨more, rfl, rfl⟩ | ⟨more, rfl, -⟩ := List.append_eq_append_iff.1 h
    · rcases more with _ | ⟨piece, more⟩
      · rwa [List.append_nil] at hlimit
      · obtain ⟨e, rfl⟩ := hrest piece rfl
        exact absurd (by simp) (hbefore e)
    · rw [bytes_append, List.length_append]
      omega
  · exact fun hlimit => ⟨body, rest, rfl, hwhole, hlimit⟩

/-- **The payload of a body, by its bytes and its first error.** Pieces that are too long with no
error among them decide it, whatever follows. If there are none, a whole body has the payload of its
bytes, and one that breaks off fails with its first error: with the lost connection that this is or
came of, and with the text of any other. A whole body is too long just when all its bytes are, and
bodies of the same bytes do not differ, whatever comes after them. -/
theorem payload_by_bytes (body : Body) (limit : Nat) :
    (body.Overruns limit → body.payload limit = .error (.payload "length limit exceeded")) ∧
    (¬ body.Overruns limit → body.Whole →
      body.payload limit = .ok (Text.payloadText body.bytes)) ∧
    (¬ body.Overruns limit → ¬ body.Whole →
      ∃ before e rest, body = before ++ .broken e :: rest ∧ Whole before ∧
        (∀ url reason, e.CameOf url reason →
          body.payload limit = .error (.unavailable url reason)) ∧
        ((∀ url reason, ¬ e.CameOf url reason) → body.payload limit = .error (.payload e.text))) ∧
    (body.Whole → (body.Overruns limit ↔ limit < body.bytes.length)) ∧
    ∀ body' rest, body.Whole → Whole body' → body.bytes = bytes body' →
      payload (body ++ rest) limit = payload (body' ++ rest) limit := by
  have hover (h : body.Whole) : body.Overruns limit ↔ limit < body.bytes.length := by
    have hnil : body ++ [] = body := List.append_nil body
    rw [← hnil, overruns_append_iff h (by simp), hnil]
  refine ⟨?_, ?_, ?_, hover, fun body' rest h h' hbytes => payload_congr h h' hbytes limit rest⟩
  · rintro ⟨before, rest, rfl, hwhole, hlimit⟩
    exact payload_of_lt hwhole hlimit rest
  · intro hfits hwhole
    rw [hover hwhole, Nat.not_lt] at hfits
    exact (payload_eq_ok_iff body limit _).2 ⟨hwhole, hfits, rfl⟩
  · intro hfits hbroken
    obtain ⟨before, e, rest, rfl, hwhole⟩ := exists_broken hbroken
    rw [overruns_append_iff hwhole (by simp), Nat.not_lt] at hfits
    refine ⟨before, e, rest, rfl, hwhole, fun url reason he => ?_, fun he => ?_⟩
    · rw [payload_of_broken hwhole hfits, he.toFault_eq]
    · rw [payload_of_broken hwhole hfits, BodyError.toFault_eq_payload he]

/-- The euro sign, cut in two. -/
def euro : Body := [.chunk [0xE2], .gate "half", .chunk [0x82, 0xAC]]

/-- A lost connection that another error wraps. -/
def reset : BodyError := .wrapped "read failed" (.fault (.unavailable "http://mint/" "reset"))

/-- The euro sign is accepted under a limit of three bytes and reads as it does in one chunk, is too
long under a limit of two, and is lost with the connection, or with any other error, after it. -/
theorem payload_by_bytes_euro :
    euro.payload 3 = .ok "€" ∧ payload [.chunk [0xE2, 0x82, 0xAC]] 3 = .ok "€" ∧
      euro.payload 2 = .error (.payload "length limit exceeded") ∧
      payload (euro ++ [.broken reset]) 3 = .error (.unavailable "http://mint/" "reset") ∧
      payload (euro ++ [.broken (.other "torn")]) 3 = .error (.payload "torn") := by
  have hwhole : euro.Whole := by decide
  have hwhole' : Whole [.chunk [0xE2, 0x82, 0xAC]] := by decide
  have htext : Text.payloadText euro.bytes = "€" := by decide +kernel
  obtain ⟨-, hok, -, hover, hcut⟩ := payload_by_bytes euro 3
  have heuro : euro.payload 3 = .ok "€" := by
    rw [hok (fun h => absurd ((hover hwhole).1 h) (by decide)) hwhole, htext]
  have hbreaks (e : BodyError) :
      (∀ url reason, e.CameOf url reason →
        payload (euro ++ [.broken e]) 3 = .error (.unavailable url reason)) ∧
      ((∀ url reason, ¬ e.CameOf url reason) →
        payload (euro ++ [.broken e]) 3 = .error (.payload e.text)) := by
    have hbroken : ¬ Whole (euro ++ [.broken e]) := fun h => h e (by simp)
    have hfits : ¬ Overruns (euro ++ [.broken e]) 3 := by
      rw [overruns_append_iff hwhole (by simp)]
      decide
    obtain ⟨before, e', rest, heq, -, hlost⟩ := (payload_by_bytes _ 3).2.2.1 hfits hbroken
    have hmem : .broken e' ∈ euro ++ [.broken e] := heq ▸ by simp
    obtain rfl : e' = e := by simpa [euro] using hmem
    exact hlost
  refine ⟨heuro, ?_, ?_, (hbreaks reset).1 _ _ (.wrapped _ .lost), (hbreaks _).2 ?_⟩
  · have hsame := hcut _ [] hwhole hwhole' rfl
    rwa [List.append_nil, List.append_nil, heuro, eq_comm] at hsame
  · exact (payload_by_bytes euro 2).1 ⟨euro, [], rfl, hwhole, by decide⟩
  · rintro url reason ⟨⟩

end Body

/-! ## The event of a request -/

/-- The event of a request with its body: there is none unless the body is whole, is not too long,
and is not empty as a text. -/
def Dispatch.event? (d : Dispatch) (body : Body) (limit : Nat) : Option Event :=
  let payload := Text.payloadText body.bytes
  if body.Whole ∧ body.bytes.length ≤ limit ∧ payload ≠ "" then some (d.event payload) else none

/-- A dispatch forwards the event of the request, if there is one. -/
theorem Dispatch.event?_run (d : Dispatch) (body : Body) (limit : Nat) :
    (d.run body limit).2.1 = d.event? body limit := by
  unfold run event?
  cases hread : body.payload limit with
  | error e =>
    have hnone : ¬ (body.Whole ∧ body.bytes.length ≤ limit ∧
        Text.payloadText body.bytes ≠ "") := by
      rintro ⟨hwhole, hlength, -⟩
      have hok := (body.payload_eq_ok_iff limit _).2 ⟨hwhole, hlength, rfl⟩
      cases hread.symm.trans hok
    rw [if_neg hnone]
    rfl
  | ok payload =>
    obtain ⟨hwhole, hlength, rfl⟩ := (body.payload_eq_ok_iff limit payload).1 hread
    by_cases hempty : Text.payloadText body.bytes = "" <;>
      simp [conclude, hwhole, hlength, hempty]

end Correlator
