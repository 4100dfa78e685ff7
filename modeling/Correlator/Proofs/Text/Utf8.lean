import Mathlib.Data.List.Induction
import Mathlib.Data.Nat.Find
import Correlator.Proofs.Text.Encoding

/-!
# What bytes read as

The decoder goes through the bytes one by one. What it makes of them can be told without it: where
a character stands in front, that is the next one, and where none does, the longest part that some
character begins with is replaced, or one byte if no character begins with it.

* `Utf8.Begins`: some character begins with these bytes.
* `Utf8.IllFormed`: a part in front of a byte string that is replaced as a whole.
* `Utf8.Reads`: the text that a byte string reads as.
* `Unfinished.Ends`: what a character under way may end with; `Utf8.Under`: this is just what goes
  on with the bytes that were read of it.
* `Utf8.leads_lead`: what a first byte says.
* `Decoder.run_encode`, `Decoder.finish_of_illFormed`: what the decoder makes of a character, and of
  a part that is ill-formed.
* **`Utf8.reads_iff`**: each byte string reads as one text, the one that it is decoded to.
* `Utf8.decode_encode`, `Octets.decode_ofString`: the bytes of a text read as that text.
-/

namespace Correlator

namespace Utf8

/-- Some character begins with these bytes. -/
def Begins (bs : Octets) : Prop := ∃ c, bs <+: String.utf8EncodeChar c

/-- A part in front of a byte string that is replaced as a whole: no character stands in front, and
the part is the longest one with which some character begins, or a single byte if there is none. -/
structure IllFormed (part rest : Octets) : Prop where
  ne_nil : part ≠ []
  no_char : ∀ c, ¬ String.utf8EncodeChar c <+: part ++ rest
  begins : Begins part ∨ part.length = 1
  longest : ∀ longer, longer <+: part ++ rest → part.length < longer.length → ¬ Begins longer

/-- The text that a byte string reads as. -/
inductive Reads : Octets → List Char → Prop
  | nil : Reads [] []
  | char (c : Char) {rest : Octets} {cs : List Char} (h : Reads rest cs) :
    Reads (String.utf8EncodeChar c ++ rest) (c :: cs)
  | replaced {part rest : Octets} {cs : List Char} (hpart : IllFormed part rest)
    (h : Reads rest cs) : Reads (part ++ rest) (replacement :: cs)

/-- Some character begins with these bytes if they can be made to stand for a number. -/
theorem begins_iff (bs : Octets) : Begins bs ↔ ∃ rest n, Stands n (bs ++ rest) := by
  constructor
  · rintro ⟨c, rest, hc⟩
    exact ⟨rest, c.toNat, hc ▸ stands_encode c⟩
  · rintro ⟨rest, n, hn⟩
    exact ⟨Char.ofNat n, rest, ((encode_eq_iff _ _).2 ⟨n, hn, rfl⟩).symm⟩

end Utf8

/-! ## Characters under way -/

namespace Unfinished

/-- The byte may come next. -/
def Takes (u : Unfinished) (b : UInt8) : Prop := u.low ≤ b ∧ b ≤ u.high

/-- An unfinished character with one more byte. -/
def next (u : Unfinished) (b : UInt8) : Unfinished :=
  ⟨64 * u.bits + Utf8.tailBits b, u.wanted - 1, 0x80, 0xBF⟩

/-- With these bytes an unfinished character ends, and this is its number. -/
def Ends (u : Unfinished) : Octets → Nat → Prop
  | [], _ => False
  | b :: bs, n =>
    u.Takes b ∧ (u.wanted ≤ 1 ∧ bs = [] ∧ n = (u.next b).bits ∨
      1 < u.wanted ∧ (u.next b).Ends bs n)

theorem next_takes_iff (u : Unfinished) (b b' : UInt8) : (u.next b).Takes b' ↔ Utf8.IsTail b' := by
  change 0x80 ≤ b' ∧ b' ≤ 0xBF ↔ 0x80 ≤ b'.toNat ∧ b'.toNat ≤ 0xBF
  rw [UInt8.le_iff_toNat_le, UInt8.le_iff_toNat_le]
  rfl

/-- Whatever may come next, there is an end to it. -/
theorem exists_ends (u : Unfinished) {b : UInt8} (hb : u.Takes b) :
    ∃ bs n, u.Ends (b :: bs) n := by
  by_cases hu : u.wanted ≤ 1
  · exact ⟨[], _, hb, .inl ⟨hu, rfl, rfl⟩⟩
  · have htail : (u.next b).Takes 0x80 := (next_takes_iff _ _ _).2 (by decide)
    obtain ⟨bs, n, h⟩ := (u.next b).exists_ends htail
    exact ⟨_, n, hb, .inr ⟨by omega, h⟩⟩
termination_by u.wanted
decreasing_by
  change u.wanted - 1 < u.wanted
  omega

variable {u : Unfinished} {bs : Octets} {n : Nat}

/-- The last byte of a character. -/
theorem ends_of_one (hu : u.wanted = 1) :
    u.Ends bs n ↔ ∃ b, bs = [b] ∧ u.Takes b ∧ n = (u.next b).bits := by
  constructor
  · rcases bs with _ | ⟨b, bs⟩
    · exact False.elim
    · rintro ⟨hb, ⟨-, rfl, hn⟩ | ⟨hu', -⟩⟩
      · exact ⟨b, rfl, hb, hn⟩
      · omega
  · rintro ⟨b, rfl, hb, hn⟩
    exact ⟨hb, .inl ⟨by omega, rfl, hn⟩⟩

/-- A byte of a character that is not the last one. -/
theorem ends_of_more (hu : 1 < u.wanted) :
    u.Ends bs n ↔ ∃ b rest, bs = b :: rest ∧ u.Takes b ∧ (u.next b).Ends rest n := by
  constructor
  · rcases bs with _ | ⟨b, bs⟩
    · exact False.elim
    · rintro ⟨hb, ⟨hu', -⟩ | ⟨-, hends⟩⟩
      · omega
      · exact ⟨b, bs, rfl, hb, hends⟩
  · rintro ⟨b, rest, rfl, hb, hends⟩
    exact ⟨hb, .inr ⟨hu, hends⟩⟩

end Unfinished

namespace Utf8

/-- What was read of a character under way: it goes on with what the character may end with, and
with nothing else. -/
def Under (bs : Octets) (u : Unfinished) : Prop :=
  ∀ rest n, Stands n (bs ++ rest) ↔ u.Ends rest n

variable {bs : Octets} {u : Unfinished} {b : UInt8}

/-- A byte may come next just when some character goes on with it. -/
theorem Under.begins_iff (h : Under bs u) : Begins (bs ++ [b]) ↔ u.Takes b := by
  rw [Utf8.begins_iff]
  constructor
  · rintro ⟨rest, n, hn⟩
    rw [List.append_assoc] at hn
    exact ((h _ n).1 hn).1
  · intro hb
    obtain ⟨rest, n, hends⟩ := u.exists_ends hb
    refine ⟨rest, n, ?_⟩
    rw [List.append_assoc]
    exact (h _ n).2 hends

/-- The last byte of a character. -/
theorem Under.last (h : Under bs u) (hb : u.Takes b) (hu : u.wanted ≤ 1) :
    String.utf8EncodeChar (Char.ofNat (u.next b).bits) = bs ++ [b] :=
  (encode_eq_iff _ _).2 ⟨_, (h _ _).2 ⟨hb, .inl ⟨hu, rfl, rfl⟩⟩, rfl⟩

/-- One more byte, and not the last one. -/
theorem Under.next (h : Under bs u) (hb : u.Takes b) (hu : 1 < u.wanted) :
    Under (bs ++ [b]) (u.next b) := by
  intro rest n
  rw [List.append_assoc, h]
  constructor
  · rintro ⟨-, ⟨hu', -⟩ | ⟨-, hends⟩⟩
    · omega
    · exact hends
  · exact fun hends => ⟨hb, .inr ⟨hu, hends⟩⟩

/-! ### After the first byte -/

variable {bits : Nat} {low high : UInt8}

theorem under_two (hb : 0xC2 ≤ b.toNat ∧ b.toNat < 0xE0) :
    Under [b] ⟨b.toNat - 0xC0, 1, 0x80, 0xBF⟩ := by
  have hrange (b₁ : UInt8) : 0x80 ≤ b₁ ∧ b₁ ≤ 0xBF ↔ IsTail b₁ := by
    simp only [UInt8.le_iff_toNat_le, UInt8.reduceToNat, IsTail]
  intro rest n
  rw [Unfinished.ends_of_one rfl]
  constructor
  · intro hn
    cases hn with
    | one hb' => omega
    | two hb' hb₁ hn => exact ⟨_, rfl, (hrange _).2 hb₁, hn⟩
    | three hb' => omega
    | four hb' => omega
  · rintro ⟨b₁, rfl, hb₁, hn⟩
    exact .two hb ((hrange _).1 hb₁) hn

theorem under_three (hb : 0xE0 ≤ b.toNat ∧ b.toNat < 0xF0) (hbits : bits = b.toNat - 0xE0)
    (hlow : low.toNat = if b.toNat = 0xE0 then 0xA0 else 0x80)
    (hhigh : high.toNat = if b.toNat = 0xED then 0x9F else 0xBF) :
    Under [b] ⟨bits, 2, low, high⟩ := by
  have hrange (b₁ : UInt8) : low ≤ b₁ ∧ b₁ ≤ high ↔ IsTail b₁ ∧
      (b.toNat = 0xE0 → 0xA0 ≤ b₁.toNat) ∧ (b.toNat = 0xED → b₁.toNat ≤ 0x9F) := by
    simp only [UInt8.le_iff_toNat_le, hlow, hhigh, IsTail]
    split_ifs <;> omega
  intro rest n
  rw [Unfinished.ends_of_more (Nat.lt_succ_self 1)]
  constructor
  · intro hn
    cases hn with
    | one hb' => omega
    | two hb' => omega
    | three hb' hb₁ hb₂ hlow hhigh hn =>
      rw [← hbits] at hn
      exact ⟨_, _, rfl, (hrange _).2 ⟨hb₁, hlow, hhigh⟩, (Unfinished.ends_of_one rfl).2
        ⟨_, rfl, (Unfinished.next_takes_iff _ _ _).2 hb₂, hn⟩⟩
    | four hb' => omega
  · rintro ⟨b₁, rest, rfl, hb₁, hends⟩
    obtain ⟨b₂, rfl, hb₂, hn⟩ := (Unfinished.ends_of_one rfl).1 hends
    obtain ⟨hb₁, hlow, hhigh⟩ := (hrange _).1 hb₁
    refine .three hb hb₁ ((Unfinished.next_takes_iff _ _ _).1 hb₂) hlow hhigh ?_
    rw [← hbits]
    exact hn

theorem under_four (hb : 0xF0 ≤ b.toNat ∧ b.toNat ≤ 0xF4) (hbits : bits = b.toNat - 0xF0)
    (hlow : low.toNat = if b.toNat = 0xF0 then 0x90 else 0x80)
    (hhigh : high.toNat = if b.toNat = 0xF4 then 0x8F else 0xBF) :
    Under [b] ⟨bits, 3, low, high⟩ := by
  have hrange (b₁ : UInt8) : low ≤ b₁ ∧ b₁ ≤ high ↔ IsTail b₁ ∧
      (b.toNat = 0xF0 → 0x90 ≤ b₁.toNat) ∧ (b.toNat = 0xF4 → b₁.toNat ≤ 0x8F) := by
    simp only [UInt8.le_iff_toNat_le, hlow, hhigh, IsTail]
    split_ifs <;> omega
  intro rest n
  rw [Unfinished.ends_of_more (by simp)]
  constructor
  · intro hn
    cases hn with
    | one hb' => omega
    | two hb' => omega
    | three hb' => omega
    | four hb' hb₁ hb₂ hb₃ hlow hhigh hn =>
      rw [← hbits] at hn
      exact ⟨_, _, rfl, (hrange _).2 ⟨hb₁, hlow, hhigh⟩,
        (Unfinished.ends_of_more (Nat.lt_succ_self 1)).2
          ⟨_, _, rfl, (Unfinished.next_takes_iff _ _ _).2 hb₂, (Unfinished.ends_of_one rfl).2
            ⟨_, rfl, (Unfinished.next_takes_iff _ _ _).2 hb₃, hn⟩⟩⟩
  · rintro ⟨b₁, rest, rfl, hb₁, hends₂⟩
    obtain ⟨b₂, rest, rfl, hb₂, hends₃⟩ := (Unfinished.ends_of_more (Nat.lt_succ_self 1)).1 hends₂
    obtain ⟨b₃, rfl, hb₃, hn⟩ := (Unfinished.ends_of_one rfl).1 hends₃
    obtain ⟨hb₁, hlow, hhigh⟩ := (hrange _).1 hb₁
    refine .four hb hb₁ ((Unfinished.next_takes_iff _ _ _).1 hb₂)
      ((Unfinished.next_takes_iff _ _ _).1 hb₃) hlow hhigh ?_
    rw [← hbits]
    exact hn

/-- What a first byte says: it is a character, it begins one, or no character begins with it. -/
inductive Leads (read : List Char) (b : UInt8) : Decoder → Prop
  | char {c : Char} (h : String.utf8EncodeChar c = [b]) : Leads read b ⟨c :: read, none⟩
  | under {u : Unfinished} (h : Under [b] u) : Leads read b ⟨read, some u⟩
  | replaced (h : ¬ Begins [b]) : Leads read b ⟨replacement :: read, none⟩

theorem leads_lead (read : List Char) (b : UInt8) : Leads read b (Decoder.lead read b) := by
  have hnone (h : ∀ rest n, ¬ Stands n (b :: rest)) : ¬ Begins [b] := fun hb =>
    have ⟨rest, n, hn⟩ := (begins_iff _).1 hb
    h rest n hn
  unfold Decoder.lead
  simp only [beq_iff_eq]
  -- the rows of the table of first bytes, in their order
  by_cases h₁ : b.toNat < 0x80
  · rw [if_pos h₁]
    exact .char ((encode_eq_iff _ _).2 ⟨_, .one h₁ rfl, rfl⟩)
  rw [if_neg h₁]
  by_cases h₂ : b.toNat < 0xC2
  · rw [if_pos h₂]
    refine .replaced (hnone fun rest n hn => ?_)
    cases hn <;> omega
  rw [if_neg h₂]
  by_cases h₃ : b.toNat < 0xE0
  · rw [if_pos h₃]
    exact .under (under_two ⟨by omega, by omega⟩)
  rw [if_neg h₃]
  by_cases h₄ : b.toNat = 0xE0
  · rw [if_pos h₄]
    exact .under (under_three ⟨by omega, by omega⟩ (by omega) (by simp [h₄]) (by simp [h₄]))
  rw [if_neg h₄]
  by_cases h₅ : b.toNat = 0xED
  · rw [if_pos h₅]
    exact .under (under_three ⟨by omega, by omega⟩ (by omega) (by simp [h₅]) (by simp [h₅]))
  rw [if_neg h₅]
  by_cases h₆ : b.toNat < 0xF0
  · rw [if_pos h₆]
    exact .under (under_three ⟨by omega, by omega⟩ (by omega) (by simp [h₄]) (by simp [h₅]))
  rw [if_neg h₆]
  by_cases h₇ : b.toNat = 0xF0
  · rw [if_pos h₇]
    exact .under (under_four ⟨by omega, by omega⟩ (by omega) (by simp [h₇]) (by simp [h₇]))
  rw [if_neg h₇]
  by_cases h₈ : b.toNat = 0xF4
  · rw [if_neg (by omega), if_pos h₈]
    exact .under (under_four ⟨by omega, by omega⟩ (by omega) (by simp [h₈]) (by simp [h₈]))
  by_cases h₉ : b.toNat < 0xF4
  · rw [if_pos h₉]
    exact .under (under_four ⟨by omega, by omega⟩ (by omega) (by simp [h₇]) (by simp [h₈]))
  · rw [if_neg h₉, if_neg h₈]
    refine .replaced (hnone fun rest n hn => ?_)
    cases hn <;> omega

end Utf8

/-! ## The decoder -/

namespace Decoder

open Utf8

variable {read : List Char} {bs part rest : Octets} {u : Unfinished} {b : UInt8} {c : Char}

/-- A decoder with text before all that it has read. -/
def after (d : Decoder) (before : List Char) : Decoder := ⟨d.read ++ before, d.partial?⟩

theorem lead_after (read before : List Char) (b : UInt8) :
    lead (read ++ before) b = (lead read b).after before := by
  simp only [lead, apply_ite (after · before)]
  rfl

theorem feed_after (d : Decoder) (before : List Char) (b : UInt8) :
    (d.after before).feed b = (d.feed b).after before := by
  unfold feed
  obtain ⟨read, _ | u⟩ := d
  · exact lead_after read before b
  · simp only [after]
    split_ifs
    · rfl
    · rfl
    · exact lead_after (replacement :: read) before b

theorem run_after (d : Decoder) (before : List Char) (bs : Octets) :
    (d.after before).run bs = (d.run bs).after before := by
  induction bs generalizing d with
  | nil => rfl
  | cons b bs ih =>
    change ((d.after before).feed b).run bs = ((d.feed b).run bs).after before
    rw [feed_after, ih]

theorem finish_after (d : Decoder) (before : List Char) :
    (d.after before).finish = before.reverse ++ d.finish := by
  obtain ⟨read, _ | u⟩ := d <;> simp [finish, after]

/-- What was read before stays in front of the text. -/
theorem finish_run (read : List Char) (bs : Octets) :
    (run ⟨read, none⟩ bs).finish = read.reverse ++ decode bs := by
  have h := run_after ⟨[], none⟩ read bs
  rw [after, List.nil_append] at h
  rw [h, finish_after]
  rfl

theorem feed_of_last (hb : u.Takes b) (hu : u.wanted ≤ 1) :
    feed ⟨read, some u⟩ b = ⟨Char.ofNat (u.next b).bits :: read, none⟩ := by
  unfold Unfinished.Takes at hb
  simp only [feed, hb, hu, and_self, if_true]
  rfl

theorem feed_of_more (hb : u.Takes b) (hu : 1 < u.wanted) :
    feed ⟨read, some u⟩ b = ⟨read, some (u.next b)⟩ := by
  unfold Unfinished.Takes at hb
  simp only [feed, hb, Nat.not_le.2 hu, and_self, if_true, if_false]
  rfl

/-- A byte that cannot come next ends a character under way as one that is replaced. -/
theorem feed_of_refused (hb : ¬ u.Takes b) :
    feed ⟨read, some u⟩ b = feed ⟨replacement :: read, none⟩ b := by
  unfold Unfinished.Takes at hb
  simp only [feed, hb, if_false]

/-- The rest of a character under way. -/
theorem run_of_under (h : Under bs u) (hc : String.utf8EncodeChar c = bs ++ rest) :
    run ⟨read, some u⟩ rest = ⟨c :: read, none⟩ := by
  induction rest generalizing bs u with
  | nil =>
    have hends := (h [] c.toNat).1 (hc ▸ stands_encode c)
    exact hends.elim
  | cons b rest ih =>
    have hends := (h (b :: rest) c.toNat).1 (hc ▸ stands_encode c)
    obtain ⟨hb, ⟨hu, rfl, hn⟩ | ⟨hu, -⟩⟩ := hends
    · change feed ⟨read, some u⟩ b = _
      rw [feed_of_last hb hu, ← hn, Char.ofNat_toNat]
    · change run (feed ⟨read, some u⟩ b) rest = _
      rw [feed_of_more hb hu]
      exact ih (h.next hb hu) (by rw [hc, List.append_assoc]; rfl)

/-- The bytes of a character are read as that character. -/
theorem run_encode (read : List Char) (c : Char) :
    run ⟨read, none⟩ (String.utf8EncodeChar c) = ⟨c :: read, none⟩ := by
  have hstands := stands_encode c
  generalize hbs : String.utf8EncodeChar c = bs at hstands
  rcases bs with _ | ⟨b, rest⟩
  · nomatch hstands
  change run (lead read b) rest = _
  have hlead := leads_lead read b
  generalize lead read b = d at hlead
  cases hlead with
  | char h =>
    obtain ⟨hc, rfl⟩ := (h ▸ stands_encode _).of_singleton hstands
    rw [Char.toNat_inj.1 hc]
    rfl
  | under h => exact run_of_under h hbs
  | replaced h => exact absurd ⟨c, rest, hbs.symm⟩ h

/-- A part that begins a character, with no character in front, is a character under way. -/
theorem exists_under (read : List Char) (hpart : part ≠ []) (hbegins : Begins part)
    (hno : ∀ c, ¬ String.utf8EncodeChar c <+: part) :
    ∃ u, Under part u ∧ run ⟨read, none⟩ part = ⟨read, some u⟩ := by
  -- on the part, last byte first: what was read before is under way too
  induction part using List.reverseRecOn with
  | nil => exact absurd rfl hpart
  | append_singleton before b ih =>
    have hbefore : before <+: before ++ [b] := List.prefix_append _ _
    rcases List.eq_nil_or_concat before with rfl | hne
    · have hlead := leads_lead read b
      change ∃ u, Under [b] u ∧ lead read b = _
      generalize lead read b = d at hlead
      cases hlead with
      | char h => exact (hno _ ⟨[], (List.append_nil _).trans h⟩).elim
      | under h => exact ⟨_, h, rfl⟩
      | replaced h => exact absurd hbegins h
    · obtain ⟨c, hc⟩ := hbegins
      obtain ⟨u, hu, hrun⟩ := ih (by rcases hne with ⟨l, a, rfl⟩; simp) ⟨c, hbefore.trans hc⟩
        fun c hc => hno c (hc.trans hbefore)
      have hb : u.Takes b := hu.begins_iff.1 ⟨c, hc⟩
      rw [run_append, hrun]
      by_cases hlast : u.wanted ≤ 1
      · exact (hno _ ⟨[], (List.append_nil _).trans (hu.last hb hlast)⟩).elim
      · exact ⟨_, hu.next hb (by omega), feed_of_more hb (by omega)⟩

/-- A character under way with which no character goes on is replaced. -/
theorem finish_of_under (h : Under part u) (hrest : ∀ b, [b] <+: rest → ¬ Begins (part ++ [b])) :
    (run ⟨read, some u⟩ rest).finish = (run ⟨replacement :: read, none⟩ rest).finish := by
  cases rest with
  | nil => rfl
  | cons b rest =>
    have hb : ¬ u.Takes b := fun hb => hrest b (by simp) (h.begins_iff.2 hb)
    change (run (feed ⟨read, some u⟩ b) rest).finish = _
    rw [feed_of_refused hb]
    rfl

/-- A part that is ill-formed is replaced. -/
theorem finish_of_illFormed (h : IllFormed part rest) :
    (run ⟨read, none⟩ (part ++ rest)).finish = (run ⟨replacement :: read, none⟩ rest).finish := by
  have hrest (b : UInt8) (hb : [b] <+: rest) : ¬ Begins (part ++ [b]) :=
    h.longest _ ((List.prefix_append_right_inj part).2 hb) (by simp)
  have hno (c : Char) (hc : String.utf8EncodeChar c <+: part) : False :=
    h.no_char c (hc.trans (List.prefix_append part rest))
  rw [run_append]
  by_cases hbegins : Begins part
  · obtain ⟨u, hu, hrun⟩ := exists_under read h.ne_nil hbegins hno
    rw [hrun, finish_of_under hu hrest]
  · obtain ⟨b, rfl⟩ := List.length_eq_one_iff.1 (h.begins.resolve_left hbegins)
    have hlead := leads_lead read b
    change (run (lead read b) rest).finish = _
    generalize lead read b = d at hlead
    cases hlead with
    | char hc => exact (hno _ ⟨[], (List.append_nil _).trans hc⟩).elim
    | under hu => exact finish_of_under hu hrest
    | replaced _ => rfl

end Decoder

/-! ## What a byte string reads as -/

namespace Utf8

variable {bs part rest : Octets} {cs : List Char}

theorem decode_char (c : Char) (rest : Octets) :
    decode (String.utf8EncodeChar c ++ rest) = c :: decode rest := by
  rw [decode, Decoder.run_append, Decoder.start, Decoder.run_encode, Decoder.finish_run]
  rfl

theorem decode_illFormed (h : IllFormed part rest) :
    decode (part ++ rest) = replacement :: decode rest := by
  rw [decode, Decoder.start, Decoder.finish_of_illFormed h, Decoder.finish_run]
  rfl

theorem Reads.decode_eq (h : Reads bs cs) : decode bs = cs := by
  induction h with
  | nil => rfl
  | char c h ih => rw [decode_char, ih]
  | replaced hpart h ih => rw [decode_illFormed hpart, ih]

open Classical in
/-- Where no character stands in front, there is a part to be replaced. -/
theorem exists_illFormed (hbs : bs ≠ []) (hno : ∀ c, ¬ String.utf8EncodeChar c <+: bs) :
    ∃ part rest, bs = part ++ rest ∧ IllFormed part rest := by
  have hpos : 0 < bs.length := List.length_pos_iff.2 hbs
  let n := Nat.findGreatest (fun n => Begins (bs.take n)) bs.length
  refine ⟨bs.take (max n 1), bs.drop (max n 1), (List.take_append_drop _ _).symm, ?_⟩
  have hlength : (bs.take (max n 1)).length = min (max n 1) bs.length := List.length_take
  refine ⟨List.ne_nil_of_length_pos (by omega), ?_, ?_, ?_⟩
  · rwa [List.take_append_drop]
  · by_cases hn : n = 0
    · right
      omega
    · left
      rw [Nat.max_eq_left (by omega)]
      exact Nat.findGreatest_of_ne_zero rfl hn
  · intro longer hlonger hlt hbegins
    rw [List.take_append_drop] at hlonger
    rw [List.prefix_iff_eq_take.1 hlonger] at hbegins
    have hle : longer.length ≤ n :=
      Nat.le_findGreatest (P := fun n => Begins (bs.take n)) hlonger.length_le hbegins
    have := hlonger.length_le
    omega

theorem encode_ne_nil (c : Char) : String.utf8EncodeChar c ≠ [] := by
  intro h
  nomatch h ▸ stands_encode c

theorem exists_reads (bs : Octets) : ∃ cs, Reads bs cs := by
  induction hn : bs.length using Nat.strong_induction_on generalizing bs with
  | _ n ih =>
    subst hn
    rcases eq_or_ne bs [] with rfl | hbs
    · exact ⟨[], .nil⟩
    by_cases hc : ∃ c, String.utf8EncodeChar c <+: bs
    · obtain ⟨c, rest, rfl⟩ := hc
      have hpos := List.length_pos_iff.2 (encode_ne_nil c)
      obtain ⟨cs, h⟩ := ih rest.length (by rw [List.length_append]; omega) rest rfl
      exact ⟨c :: cs, .char c h⟩
    · obtain ⟨part, rest, rfl, hpart⟩ := exists_illFormed hbs fun c h => hc ⟨c, h⟩
      have hpos := List.length_pos_iff.2 hpart.ne_nil
      obtain ⟨cs, h⟩ := ih rest.length (by rw [List.length_append]; omega) rest rfl
      exact ⟨replacement :: cs, .replaced hpart h⟩

/-- **Each byte string reads as one text, and it is the one that is decoded.** -/
theorem reads_iff (bs : Octets) (cs : List Char) : Reads bs cs ↔ cs = decode bs := by
  constructor
  · exact fun h => h.decode_eq.symm
  · rintro rfl
    obtain ⟨cs, h⟩ := exists_reads bs
    rwa [h.decode_eq]

-- a character that is cut short, and bytes of a surrogate, with which no character begins
example : decode [0xE2, 0x82, 0x41, 0xED, 0xA0] = [replacement, 'A', replacement, replacement] := by
  decide

/-- The bytes of a text read as that text. -/
theorem decode_encode (cs : List Char) : decode (encode cs) = cs := by
  induction cs with
  | nil => rfl
  | cons c cs ih =>
    change decode (String.utf8EncodeChar c ++ encode cs) = c :: cs
    rw [decode_char, ih]

end Utf8

/-! ## Strings -/

namespace Octets

/-- The loop that lists the bytes of an array, from wherever it stands. -/
theorem toList_loop_eq (bs : ByteArray) (i : Nat) (read : Octets) :
    ByteArray.toList.loop bs i read = read.reverse ++ bs.data.toList.drop i := by
  fun_induction ByteArray.toList.loop bs i read with
  | case1 i read h ih =>
    have hi : i < bs.data.toList.length := by simpa using h
    rw [ih, List.drop_eq_getElem_cons hi]
    simp [ByteArray.get!, h]
  | case2 i read h =>
    rw [List.drop_eq_nil_of_le (by simpa using h), List.append_nil]

theorem ofString_eq (s : String) : ofString s = Utf8.encode s.toList := by
  have hbytes : s.toUTF8.data.toList = Utf8.encode s.toList := by
    conv => lhs; rw [← String.ofList_toList (s := s)]
    rw [String.toUTF8_eq_toByteArray, String.toByteArray_ofList, List.utf8Encode]
    exact List.toList_data_toByteArray
  rw [ofString, ByteArray.toList, toList_loop_eq, List.drop_zero, hbytes]
  rfl

/-- The bytes of a string read as its characters. -/
theorem decode_ofString (s : String) : Utf8.decode (ofString s) = s.toList := by
  rw [ofString_eq, Utf8.decode_encode]

end Octets

end Correlator
