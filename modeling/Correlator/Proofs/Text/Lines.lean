import Mathlib.Data.List.Infix
import Correlator.Text.Lines

/-!
# What becomes of line ends

A text whose lines are rejoined is the text without the line end that it ends in, and with a line
feed for each carriage return and line feed. This is done once: a carriage return before another
line end becomes part of a new line end, and of several line ends at the end of a text one goes.

* `bare`: a line feed for each carriage return and line feed; `chomp`: without the last line end.
* **`rejoin_eq`**: a text whose lines are rejoined.
* `rejoin_eq_nil_iff`, `rejoin_eq_self_iff`: the texts of which nothing is left, and those that are
  left as they are.
* `returnFeed_infix_rejoin_iff`, `feed_suffix_rejoin_iff`: the texts in which line ends are left.
* `LineEnd`, `rejoin_lineEnds`: texts of line ends only.
-/

namespace Correlator.Text

/-- A line feed for each carriage return and line feed. -/
def bare : List Char → List Char
  | '\r' :: '\n' :: cs => '\n' :: bare cs
  | c :: cs => c :: bare cs
  | [] => []

/-- A text without the line end that it ends in, if it ends in one. -/
def chomp (cs : List Char) : List Char :=
  if ['\r', '\n'] <:+ cs then cs.dropLast.dropLast
  else if ['\n'] <:+ cs then cs.dropLast
  else cs

/-- A line without the carriage return that it ends in. -/
def withoutReturn (l : List Char) : List Char := if ['\r'] <:+ l then l.dropLast else l

variable {l cs : List Char} {c : Char}

/-! ## Line feeds for line ends -/

theorem bare_cons_of_ne_feed (h : cs.head? ≠ some '\n') : bare (c :: cs) = c :: bare cs := by
  rcases cs with _ | ⟨d, cs⟩
  · simp [bare]
  · have hd : d ≠ '\n' := by simpa using h
    rw [bare]
    simpa using fun _ => hd

theorem bare_of_not_mem (h : '\n' ∉ l) : bare l = l := by
  induction l with
  | nil => rfl
  | cons c l ih =>
    obtain ⟨-, hl⟩ := List.ne_and_not_mem_of_not_mem_cons h
    rw [bare_cons_of_ne_feed fun hhead => hl (List.mem_of_mem_head? hhead), ih hl]

theorem withoutReturn_cons (hl : l ≠ []) : withoutReturn (c :: l) = c :: withoutReturn l := by
  have hsuffix : ['\r'] <:+ c :: l ↔ ['\r'] <:+ l := by
    rw [List.suffix_cons_iff]
    simp [hl.symm]
  simp only [withoutReturn, hsuffix, List.dropLast_cons_of_ne_nil hl]
  split <;> rfl

/-- The first line end of a text becomes a line feed. -/
theorem bare_append_feed (h : '\n' ∉ l) (cs : List Char) :
    bare (l ++ '\n' :: cs) = withoutReturn l ++ '\n' :: bare cs := by
  induction l with
  | nil => simp [bare, withoutReturn]
  | cons c l ih =>
    obtain ⟨-, hl⟩ := List.ne_and_not_mem_of_not_mem_cons h
    rcases l with _ | ⟨d, l⟩
    · by_cases hreturn : c = '\r'
      · subst hreturn
        rfl
      · have hnot : ¬ ['\r'] <:+ [c] := by simpa [List.suffix_cons_iff, eq_comm] using hreturn
        simp [bare, withoutReturn, hreturn, hnot]
    · have hd : (d :: l ++ '\n' :: cs).head? ≠ some '\n' := by
        rintro ⟨⟩
        exact hl List.mem_cons_self
      rw [List.cons_append, bare_cons_of_ne_feed hd, ih hl,
        withoutReturn_cons (List.cons_ne_nil d l)]
      rfl

/-! ## The last line end -/

theorem append_returnFeed (t : List Char) : t ++ ['\r', '\n'] = t ++ ['\r'] ++ ['\n'] := by simp

theorem chomp_cons (hcs : cs ≠ []) (h : ¬ (c = '\r' ∧ cs = ['\n'])) :
    chomp (c :: cs) = c :: chomp cs := by
  have hboth : ['\r', '\n'] <:+ c :: cs ↔ ['\r', '\n'] <:+ cs := by
    rw [List.suffix_cons_iff, or_iff_right]
    rintro heq
    cases heq
    exact h ⟨rfl, rfl⟩
  have hfeed : ['\n'] <:+ c :: cs ↔ ['\n'] <:+ cs := by
    rw [List.suffix_cons_iff]
    simp [hcs.symm]
  simp only [chomp, hboth, hfeed, List.dropLast_cons_of_ne_nil hcs]
  split
  case isTrue hsuffix =>
    obtain ⟨t, rfl⟩ := hsuffix
    rw [append_returnFeed, List.dropLast_concat, List.dropLast_cons_of_ne_nil (by simp),
      List.dropLast_concat]
  case isFalse => split <;> rfl

/-- A text goes on after a line feed: its last line end is further on. -/
theorem chomp_append_feed (l : List Char) (hcs : cs ≠ []) :
    chomp (l ++ '\n' :: cs) = l ++ '\n' :: chomp cs := by
  induction l with
  | nil => exact chomp_cons hcs (by simp)
  | cons c l ih =>
    rw [List.cons_append, chomp_cons (by simp), ih]
    · rfl
    · rintro ⟨-, h⟩
      have := congrArg List.length h
      have := List.length_pos_iff.2 hcs
      simp at *
      omega

theorem chomp_append_returnFeed (t : List Char) : chomp (t ++ ['\r', '\n']) = t := by
  rw [chomp, if_pos (List.suffix_append _ _), append_returnFeed, List.dropLast_concat,
    List.dropLast_concat]

theorem chomp_of_not_mem (h : '\n' ∉ l) : chomp l = l := by
  unfold chomp
  rw [if_neg fun hsuffix => h (hsuffix.subset (by simp)),
    if_neg fun hsuffix => h (hsuffix.subset (by simp))]

theorem chomp_append_feed_nil (l : List Char) : chomp (l ++ ['\n']) = withoutReturn l := by
  have hboth : ['\r', '\n'] <:+ l ++ ['\n'] ↔ ['\r'] <:+ l := by
    rw [show ['\r', '\n'] = ['\r'] ++ ['\n'] from rfl]
    exact List.suffix_append_self_iff
  simp [chomp, withoutReturn, hboth]

/-- The ways in which a text may end, and what is left of it. -/
theorem chomp_cases (cs : List Char) :
    (∃ t, cs = t ++ ['\r', '\n'] ∧ chomp cs = t) ∨
    (∃ t, cs = t ++ ['\n'] ∧ ¬ ['\r'] <:+ t ∧ chomp cs = t) ∨
    (¬ ['\n'] <:+ cs ∧ chomp cs = cs) := by
  by_cases hboth : ['\r', '\n'] <:+ cs
  · obtain ⟨t, rfl⟩ := hboth
    exact .inl ⟨t, rfl, chomp_append_returnFeed t⟩
  by_cases hfeed : ['\n'] <:+ cs
  · obtain ⟨t, rfl⟩ := hfeed
    refine .inr (.inl ⟨t, rfl, ?_, ?_⟩)
    · rintro ⟨t, rfl⟩
      exact hboth ⟨t, by simp⟩
    · simp [chomp, hboth]
  · exact .inr (.inr ⟨hfeed, by simp [chomp, hboth, hfeed]⟩)

/-! ## Lines -/

variable {line : List Char} {done : List (List Char)}

theorem linesFrom_cons (hc : c ≠ '\n') (line : List Char) (done : List (List Char))
    (cs : List Char) : linesFrom line done (c :: cs) = linesFrom (c :: line) done cs := by
  rw [linesFrom]
  exact hc

theorem linesFrom_feed (line : List Char) (done : List (List Char)) (cs : List Char) :
    linesFrom line done ('\n' :: cs) = linesFrom [] (withoutReturn line.reverse :: done) cs := by
  by_cases hline : ∃ rest, line = '\r' :: rest
  · obtain ⟨rest, rfl⟩ := hline
    rw [linesFrom.eq_2]
    simp [withoutReturn]
  · have hnot : ¬ ['\r'] <:+ line.reverse := by
      rw [← List.reverse_prefix, List.reverse_reverse]
      rintro ⟨rest, rfl⟩
      exact hline ⟨rest, rfl⟩
    rw [linesFrom.eq_3 _ _ _ fun rest h => hline ⟨rest, h⟩, withoutReturn, if_neg hnot]

theorem linesFrom_done (line : List Char) (done : List (List Char)) (cs : List Char) :
    linesFrom line done cs = done.reverse ++ linesFrom line [] cs := by
  induction cs generalizing line done with
  | nil =>
    simp only [linesFrom]
    split <;> simp
  | cons c cs ih =>
    by_cases hc : c = '\n'
    · subst hc
      rw [linesFrom_feed, linesFrom_feed, ih, ih [] [_]]
      simp
    · rw [linesFrom_cons hc, linesFrom_cons hc]
      exact ih (c :: line) done

theorem linesFrom_ne_nil (h : line ≠ [] ∨ cs ≠ []) : linesFrom line [] cs ≠ [] := by
  induction cs generalizing line with
  | nil =>
    have hline : line ≠ [] := h.resolve_right fun h => h rfl
    simp [linesFrom, hline]
  | cons c cs ih =>
    by_cases hc : c = '\n'
    · subst hc
      rw [linesFrom_feed, linesFrom_done]
      simp
    · rw [linesFrom_cons hc]
      exact ih (.inl (List.cons_ne_nil c line))

theorem not_mem_withoutReturn (h : '\n' ∉ l) : '\n' ∉ withoutReturn l := by
  unfold withoutReturn
  split
  · exact fun hmem => h (List.mem_of_mem_dropLast hmem)
  · exact h

/-- The rejoined lines of a text, from the middle of a line on. -/
theorem intercalate_linesFrom (hline : '\n' ∉ line) (cs : List Char) :
    List.intercalate ['\n'] (linesFrom line [] cs) = bare (chomp (line.reverse ++ cs)) := by
  have hreverse : '\n' ∉ line.reverse := by simpa using hline
  induction cs generalizing line with
  | nil =>
    rw [List.append_nil, chomp_of_not_mem hreverse, bare_of_not_mem hreverse]
    rcases line with _ | ⟨c, line⟩ <;> simp [linesFrom]
  | cons c cs ih =>
    by_cases hc : c = '\n'
    · subst hc
      rw [linesFrom_feed, linesFrom_done]
      rcases eq_or_ne cs [] with rfl | hcs
      · rw [chomp_append_feed_nil, bare_of_not_mem (not_mem_withoutReturn hreverse)]
        simp [linesFrom]
      · have hrest := ih List.not_mem_nil List.not_mem_nil
        have hlines : linesFrom [] [] cs ≠ [] := linesFrom_ne_nil (.inr hcs)
        rw [chomp_append_feed _ hcs, bare_append_feed hreverse, List.reverse_singleton,
          List.singleton_append, List.intercalate_cons_of_ne_nil hlines, hrest]
        simp
    · have hcons : '\n' ∉ c :: line := List.not_mem_cons_of_ne_of_not_mem (Ne.symm hc) hline
      rw [linesFrom_cons hc, ih hcons (by simpa [and_comm] using hcons)]
      simp

/-- **A text whose lines are rejoined**: without the line end that it ends in, and with a line feed
for each carriage return and line feed. -/
theorem rejoin_eq (cs : List Char) : rejoin cs = bare (chomp cs) :=
  intercalate_linesFrom List.not_mem_nil cs

/-! ## What is left -/

theorem bare_eq_nil_iff : bare cs = [] ↔ cs = [] := by
  constructor
  · fun_cases bare cs <;> simp
  · rintro rfl
    rfl

/-- The texts of which nothing is left. -/
theorem rejoin_eq_nil_iff :
    rejoin cs = [] ↔ cs = [] ∨ cs = ['\n'] ∨ cs = ['\r', '\n'] := by
  rw [rejoin_eq, bare_eq_nil_iff]
  constructor
  · intro h
    obtain ⟨t, rfl, ht⟩ | ⟨t, rfl, -, ht⟩ | ⟨-, hcs⟩ := chomp_cases cs
    · rw [← ht, h]
      exact .inr (.inr rfl)
    · rw [← ht, h]
      exact .inr (.inl rfl)
    · exact .inl (hcs ▸ h)
  · rintro (rfl | rfl | rfl) <;> rfl

theorem length_bare_le (cs : List Char) : (bare cs).length ≤ cs.length := by
  fun_induction bare cs with
  | case1 cs ih => simp; omega
  | case2 c cs h ih => simpa using ih
  | case3 => simp

theorem bare_eq_self_iff : bare cs = cs ↔ ¬ ['\r', '\n'] <:+: cs := by
  fun_induction bare cs with
  | case1 cs ih => simp [List.infix_cons_iff]
  | case2 c cs h ih =>
    have hnot : ¬ ['\r', '\n'] <+: c :: cs := by
      rintro ⟨rest, hrest⟩
      cases hrest
      exact h rest rfl rfl
    simp [List.infix_cons_iff, hnot, ih]
  | case3 => simp

/-- The texts that are left as they are. -/
theorem rejoin_eq_self_iff :
    rejoin cs = cs ↔ ¬ ['\r', '\n'] <:+: cs ∧ ¬ ['\n'] <:+ cs := by
  rw [rejoin_eq]
  constructor
  · intro h
    have hlength := length_bare_le (chomp cs)
    rw [h] at hlength
    obtain ⟨t, rfl, ht⟩ | ⟨t, rfl, -, ht⟩ | ⟨hfeed, hcs⟩ := chomp_cases cs
    · rw [ht, List.length_append] at hlength
      exact absurd hlength (by simp)
    · rw [ht, List.length_append] at hlength
      exact absurd hlength (by simp)
    · rw [hcs] at h
      exact ⟨bare_eq_self_iff.1 h, hfeed⟩
  · rintro ⟨hnone, hfeed⟩
    have hcs : chomp cs = cs := by
      obtain ⟨t, rfl, -⟩ | ⟨t, rfl, -⟩ | ⟨-, hcs⟩ := chomp_cases cs
      · exact absurd ⟨t ++ ['\r'], by simp⟩ hfeed
      · exact absurd ⟨t, rfl⟩ hfeed
      · exact hcs
    rw [hcs, bare_eq_self_iff.2 hnone]

/-! ## Line ends that are left -/

theorem feed_prefix_bare_iff :
    ['\n'] <+: bare cs ↔ ['\n'] <+: cs ∨ ['\r', '\n'] <+: cs := by
  fun_cases bare cs with
  | case1 cs => simp
  | case2 c cs h =>
    have hnot : ¬ ['\r', '\n'] <+: c :: cs := by
      rintro ⟨rest, hrest⟩
      cases hrest
      exact h rest rfl rfl
    simp [hnot]
  | case3 => simp

theorem returnFeed_infix_bare_iff :
    ['\r', '\n'] <:+: bare cs ↔ ['\r', '\r', '\n'] <:+: cs := by
  fun_induction bare cs with
  | case1 cs ih => simp [List.infix_cons_iff, ih]
  | case2 c cs h ih =>
    have hnot : '\r' = c → ¬ ['\n'] <+: cs := by
      rintro rfl ⟨rest, rfl⟩
      exact h rest rfl rfl
    rw [List.infix_cons_iff, List.infix_cons_iff, ih, List.cons_prefix_cons, List.cons_prefix_cons,
      feed_prefix_bare_iff]
    tauto
  | case3 => simp

theorem feed_suffix_bare_iff : ['\n'] <:+ bare cs ↔ ['\n'] <:+ cs := by
  fun_induction bare cs with
  | case1 cs ih => simp [List.suffix_cons_iff, ih, bare_eq_nil_iff]
  | case2 c cs h ih => simp [List.suffix_cons_iff, ih, bare_eq_nil_iff]
  | case3 => simp

/-- A part with one character more lies in a text just when the part comes before its last one. -/
theorem exists_infix_concat_iff {p : List Char} (hp : p ≠ []) (cs : List Char) :
    (∃ c, p ++ [c] <:+: cs) ↔ p <:+: cs.dropLast := by
  rcases List.eq_nil_or_concat cs with rfl | ⟨init, x, rfl⟩
  · simp [hp]
  rw [List.concat_eq_append, List.dropLast_concat]
  constructor
  · rintro ⟨c, a, b, h⟩
    rcases List.eq_nil_or_concat b with rfl | ⟨b, y, rfl⟩
    · rw [List.append_nil, ← List.append_assoc] at h
      obtain ⟨rfl, -⟩ := List.append_inj' h rfl
      exact ⟨a, [], List.append_nil _⟩
    · rw [List.concat_eq_append, ← List.append_assoc] at h
      obtain ⟨rfl, -⟩ := List.append_inj' h rfl
      exact ⟨a, c :: b, by simp⟩
  · rintro ⟨a, b, rfl⟩
    rcases b with _ | ⟨c, b⟩
    · exact ⟨x, a, [], by simp⟩
    · exact ⟨c, a, b ++ [x], by simp⟩

theorem feed_infix_concat_iff {p : List Char} {x : Char} (hx : x ≠ '\n') (t : List Char) :
    p ++ ['\n'] <:+: t ++ [x] ↔ p ++ ['\n'] <:+: t := by
  rw [List.infix_concat_iff, or_iff_right]
  rintro ⟨a, h⟩
  rw [← List.append_assoc] at h
  obtain ⟨-, h⟩ := List.append_inj' h rfl
  exact hx (List.singleton_inj.1 h).symm

/-- A carriage return before a line end that is not the last one makes a line end that is left. -/
theorem returnFeed_infix_rejoin_iff :
    ['\r', '\n'] <:+: rejoin cs ↔ ∃ c, ['\r', '\r', '\n', c] <:+: cs := by
  rw [rejoin_eq, returnFeed_infix_bare_iff]
  refine Iff.trans ?_ (exists_infix_concat_iff (p := ['\r', '\r', '\n']) (by simp) cs).symm
  obtain ⟨t, rfl, ht⟩ | ⟨t, rfl, -, ht⟩ | ⟨hfeed, hcs⟩ := chomp_cases cs
  · rw [ht, append_returnFeed, List.dropLast_concat]
    exact (feed_infix_concat_iff (p := ['\r', '\r']) (by decide) t).symm
  · rw [ht, List.dropLast_concat]
  · rw [hcs]
    rcases List.eq_nil_or_concat cs with rfl | ⟨t, x, rfl⟩
    · simp
    · rw [List.concat_eq_append] at hfeed ⊢
      have hx : x ≠ '\n' := by
        rintro rfl
        exact hfeed ⟨t, rfl⟩
      rw [List.dropLast_concat]
      exact feed_infix_concat_iff (p := ['\r', '\r']) hx t

/-- Of two line ends at the end of a text, one is left. -/
theorem feed_suffix_rejoin_iff :
    ['\n'] <:+ rejoin cs ↔ ['\n', '\n'] <:+ cs ∨ ['\n', '\r', '\n'] <:+ cs := by
  rw [rejoin_eq, feed_suffix_bare_iff]
  obtain ⟨t, rfl, ht⟩ | ⟨t, rfl, hreturn, ht⟩ | ⟨hfeed, hcs⟩ := chomp_cases cs
  · have hboth : ['\n', '\r', '\n'] <:+ t ++ ['\r', '\n'] ↔ ['\n'] <:+ t :=
      @List.suffix_append_self_iff _ ['\n'] t _
    have hnot : ¬ ['\n', '\n'] <:+ t ++ ['\r', '\n'] := by
      rintro ⟨a, h⟩
      cases (List.append_inj' h rfl).2
    rw [ht, hboth, or_iff_right hnot]
  · have hfeed : ['\n', '\n'] <:+ t ++ ['\n'] ↔ ['\n'] <:+ t :=
      @List.suffix_append_self_iff _ ['\n'] t _
    have hboth : ['\n', '\r', '\n'] <:+ t ++ ['\n'] ↔ ['\n', '\r'] <:+ t :=
      @List.suffix_append_self_iff _ ['\n', '\r'] t _
    have hnot : ¬ ['\n', '\r'] <:+ t := fun h => hreturn ((List.suffix_append ['\n'] _).trans h)
    rw [ht, hfeed, hboth, or_iff_left hnot]
  · rw [hcs, iff_false_left hfeed]
    rintro (h | h)
    · exact hfeed ((List.suffix_append ['\n'] _).trans h)
    · exact hfeed ((List.suffix_append ['\n', '\r'] _).trans h)

/-! ## Texts of line ends -/

/-- A line end. -/
inductive LineEnd
  | feed
  | returnFeed
  deriving DecidableEq, Repr

/-- The characters of a line end. -/
def LineEnd.chars : LineEnd → List Char
  | .feed => ['\n']
  | .returnFeed => ['\r', '\n']

/-- A text of line ends only. -/
def lineEnds (ends : List LineEnd) : List Char := ends.flatMap LineEnd.chars

theorem bare_lineEnds (ends : List LineEnd) :
    bare (lineEnds ends) = List.replicate ends.length '\n' := by
  induction ends with
  | nil => rfl
  | cons e ends ih =>
    cases e <;> simpa [lineEnds, LineEnd.chars, bare, List.replicate_succ] using ih

theorem chomp_lineEnds (ends : List LineEnd) :
    chomp (lineEnds ends) = lineEnds ends.dropLast := by
  rcases List.eq_nil_or_concat ends with rfl | ⟨ends, e, rfl⟩
  · rfl
  rw [List.concat_eq_append, List.dropLast_concat, lineEnds, List.flatMap_append,
    List.flatMap_singleton]
  cases e with
  | returnFeed => exact chomp_append_returnFeed _
  | feed =>
    have hnot : ¬ ['\r'] <:+ lineEnds ends := by
      rcases List.eq_nil_or_concat ends with rfl | ⟨ends, e, rfl⟩
      · simp [lineEnds]
      rw [List.concat_eq_append, lineEnds, List.flatMap_append, List.flatMap_singleton]
      rintro ⟨a, h⟩
      have hlast := congrArg List.getLast? h
      cases e <;> simp [LineEnd.chars] at hlast
    exact (chomp_append_feed_nil _).trans (if_neg hnot)

/-- Of a text of line ends all but one are left. -/
theorem rejoin_lineEnds (ends : List LineEnd) :
    rejoin (lineEnds ends) = List.replicate (ends.length - 1) '\n' := by
  rw [rejoin_eq, chomp_lineEnds, bare_lineEnds, List.length_dropLast]

end Correlator.Text
