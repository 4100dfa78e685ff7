import Mathlib.Data.List.Infix
import Correlator.Text.Cut

/-!
# Where a text is cut

A text is cut at the first place where the mark stands.

* `cut?_eq_none_iff`, `length_le_of_cut?`: a text is cut if the mark stands in it, and then at no
  later place than any other.
* **`cut?_eq_some_iff`**: these facts and no other ones make a cut.
* `cut?_append`, `cut?_left`, `cut?_right`: the first mark of a text and the first marks of its
  parts; `cut?_append_cons`: a character that is not in the mark keeps the marks before it from
  those after it.
* `Clear`: in a text that a mark follows, no other mark begins; `clear_iff`, `clear_singleton_iff`,
  `clear_pair_iff`: which texts these are; **`cut?_eq_some_iff_clear`**: behind them a text is cut.
* **`pieces_append_cons`**: the same for all the marks of a text.
* `Pieces`: the pieces of a text, told without the function; `pieces_iff`: it finds them.
* `splitAt_eq_splitOn`: to cut wherever one character stands is to split there.
-/

namespace Correlator.Text

variable {m n cs rest a b a' b' t : List Char} {ps : List (List Char)} {x c : Char}

/-! ## The first mark -/

theorem dropLead?_eq_some_iff : dropLead? m cs = some rest ↔ cs = m ++ rest := by
  refine ⟨dropLead?_eq_some, ?_⟩
  rintro rfl
  induction m with
  | nil => rfl
  | cons c m ih => simpa [dropLead?] using ih

theorem dropLead?_eq_none_iff : dropLead? m cs = none ↔ ¬ m <+: cs := by
  rw [Option.eq_none_iff_forall_ne_some]
  simp only [ne_eq, dropLead?_eq_some_iff]
  exact ⟨fun h ⟨rest, hrest⟩ => h rest hrest.symm, fun h rest hrest => h ⟨rest, hrest.symm⟩⟩

/-- A text that begins with the mark is cut there. -/
theorem cut?_lead (hm : m ≠ []) (rest : List Char) : cut? m (m ++ rest) = some ([], rest) := by
  obtain ⟨c, m, rfl⟩ := List.exists_cons_of_ne_nil hm
  have hlead : dropLead? (c :: m) (c :: (m ++ rest)) = some rest := dropLead?_eq_some_iff.2 rfl
  rw [List.cons_append, cut?, hlead]

/-- A text that does not begin with the mark is cut where the rest of it is. -/
theorem cut?_cons (h : ¬ m <+: c :: cs) :
    cut? m (c :: cs) = (cut? m cs).map fun (before, after) => (c :: before, after) := by
  rw [cut?, dropLead?_eq_none_iff.2 h]

theorem cut?_eq_none_iff : cut? m cs = none ↔ ¬ m <:+: cs := by
  induction cs with
  | nil => cases m <;> simp [cut?]
  | cons c cs ih =>
    rw [List.infix_cons_iff, not_or]
    by_cases hlead : m <+: c :: cs
    · obtain ⟨rest, hrest⟩ := hlead
      rw [cut?, dropLead?_eq_some_iff.2 hrest.symm]
      simp [← hrest]
    · rw [cut?_cons hlead, Option.map_eq_none_iff, ih]
      simp [hlead]

theorem hasMark_iff : hasMark m cs = true ↔ m <:+: cs := by
  rw [hasMark, Option.isSome_iff_ne_none, ne_eq, cut?_eq_none_iff, Classical.not_not]

/-- No mark stands before the one at which a text is cut. -/
theorem length_le_of_cut? (h : cut? m cs = some (a, b)) (hcs : cs = a' ++ m ++ b') :
    a.length ≤ a'.length := by
  induction cs generalizing a a' with
  | nil =>
    have := cut?_eq_some h
    simp_all
  | cons c cs ih =>
    by_cases hlead : m <+: c :: cs
    · obtain ⟨rest, hrest⟩ := hlead
      rw [cut?, dropLead?_eq_some_iff.2 hrest.symm] at h
      cases h
      exact Nat.zero_le _
    · rw [cut?_cons hlead] at h
      obtain ⟨⟨before, after⟩, hcut, hparts⟩ := Option.map_eq_some_iff.1 h
      cases hparts
      cases a' with
      | nil => exact absurd ⟨b', hcs.symm⟩ hlead
      | cons d a' => exact Nat.succ_le_succ (ih hcut (List.cons.inj hcs).2)

/-- **A text is cut at the first mark.** -/
theorem cut?_eq_some_iff : cut? m cs = some (a, b) ↔
    cs = a ++ m ++ b ∧ ∀ a' b', cs = a' ++ m ++ b' → a.length ≤ a'.length := by
  refine ⟨fun h => ⟨cut?_eq_some h, fun a' b' => length_le_of_cut? h⟩, ?_⟩
  rintro ⟨hcs, hfirst⟩
  cases hcut : cut? m cs with
  | none => exact absurd ⟨a, b, hcs.symm⟩ (cut?_eq_none_iff.1 hcut)
  | some parts =>
    obtain ⟨a', b'⟩ := parts
    have hcs' := cut?_eq_some hcut
    have hlength := Nat.le_antisymm (hfirst a' b' hcs') (length_le_of_cut? hcut hcs)
    have hparts := hcs.symm.trans hcs'
    rw [List.append_assoc, List.append_assoc] at hparts
    obtain ⟨rfl, hrest⟩ := List.append_inj hparts hlength
    obtain rfl := List.append_cancel_left hrest
    rfl

/-! ## Texts put together -/

/-- What is put after a text does not move its first mark. -/
theorem cut?_append (h : cut? m cs = some (a, b)) (t : List Char) :
    cut? m (cs ++ t) = some (a, b ++ t) := by
  have hcs := cut?_eq_some h
  refine cut?_eq_some_iff.2 ⟨by simp [hcs], fun a' b' hsplit => ?_⟩
  by_cases hlt : a'.length < a.length
  · -- a mark that stands before the first one would lie within the text
    exfalso
    have hprefix : a' ++ m <+: cs := by
      refine List.prefix_of_prefix_length_le ⟨b', hsplit.symm⟩ (List.prefix_append cs t) ?_
      simp only [hcs, List.length_append]
      omega
    obtain ⟨b'', hb''⟩ := hprefix
    have := length_le_of_cut? h hb''.symm
    omega
  · omega

/-- A first mark that lies within the first part of a text is the first one of that part. -/
theorem cut?_left (h : cut? m (cs ++ t) = some (a, b)) (hle : a.length + m.length ≤ cs.length) :
    ∃ b', b = b' ++ t ∧ cut? m cs = some (a, b') := by
  obtain ⟨hcs, hfirst⟩ := cut?_eq_some_iff.1 h
  have hprefix : a ++ m <+: cs := by
    refine List.prefix_of_prefix_length_le ⟨b, hcs.symm⟩ (List.prefix_append cs t) ?_
    simpa using hle
  obtain ⟨b', rfl⟩ := hprefix
  have hb : b = b' ++ t := by simpa using hcs.symm
  exact ⟨b', hb, cut?_eq_some_iff.2
    ⟨rfl, fun x y hxy => hfirst x (y ++ t) (by rw [hxy]; simp)⟩⟩

/-- A first mark that lies within the second part of a text is the first one of that part, and the
first part has none. -/
theorem cut?_right (hm : m ≠ []) (h : cut? m (cs ++ t) = some (a, b))
    (hle : cs.length ≤ a.length) :
    ∃ a', a = cs ++ a' ∧ cut? m t = some (a', b) ∧ cut? m cs = none := by
  obtain ⟨hcs, hfirst⟩ := cut?_eq_some_iff.1 h
  have hprefix : cs <+: a :=
    List.prefix_of_prefix_length_le (List.prefix_append cs t) ⟨m ++ b, by simp [hcs]⟩ hle
  obtain ⟨a', rfl⟩ := hprefix
  have ht : t = a' ++ m ++ b := by simpa using hcs
  refine ⟨a', rfl, cut?_eq_some_iff.2 ⟨ht, fun x y hxy => ?_⟩, cut?_eq_none_iff.2 ?_⟩
  · have := hfirst (cs ++ x) y (by rw [hxy]; simp)
    simpa using this
  · rintro ⟨x, y, rfl⟩
    have := hfirst x (y ++ t) (by simp)
    have := List.length_pos_iff.2 hm
    simp only [List.length_append] at *
    omega

theorem prefix_of_prefix_append_cons (hc : c ∉ m) (h : m <+: cs ++ c :: t) : m <+: cs := by
  obtain hm | hm := Nat.le_total m.length cs.length
  · exact List.prefix_of_prefix_length_le h (List.prefix_append cs _) hm
  · obtain ⟨u, rfl⟩ := List.prefix_of_prefix_length_le (List.prefix_append cs _) h hm
    rw [List.prefix_append_right_inj] at h
    cases u with
    | nil => simp
    | cons d u => simp [(List.cons_prefix_cons.1 h).1] at hc

/-- A character that is not in the mark keeps a text without marks from those after it. -/
theorem cut?_append_cons (hm : m ≠ []) (hc : c ∉ m) (h : cut? m cs = none) (t : List Char) :
    cut? m (cs ++ c :: t) =
      (cut? m t).map fun (before, after) => (cs ++ c :: before, after) := by
  rw [cut?_eq_none_iff] at h
  induction cs with
  | nil =>
    refine cut?_cons fun hlead => hm ?_
    have hnil : m <+: [] := prefix_of_prefix_append_cons hc hlead
    exact List.prefix_nil.1 hnil
  | cons d cs ih =>
    rw [List.infix_cons_iff, not_or] at h
    have hlead (hlead : m <+: d :: (cs ++ c :: t)) : m <+: d :: cs :=
      prefix_of_prefix_append_cons hc hlead
    rw [List.cons_append, cut?_cons (mt hlead h.1), ih h.2, Option.map_map]
    rfl

/-! ## Texts that a mark may follow -/

/-- In a text that a mark follows, no other mark begins. -/
def Clear (m a : List Char) : Prop := ∀ x y, a ++ m = x ++ m ++ y → a.length ≤ x.length

/-- **A text is cut behind what no mark begins in.** -/
theorem cut?_eq_some_iff_clear : cut? m cs = some (a, b) ↔ cs = a ++ m ++ b ∧ Clear m a := by
  rw [cut?_eq_some_iff]
  refine and_congr_right fun hcs => ⟨fun hfirst x y hxy => ?_, fun hclear a' b' hcs' => ?_⟩
  · exact hfirst x (y ++ b) (by rw [hcs, hxy]; simp)
  · refine Nat.le_of_not_lt fun hlt => ?_
    have hprefix : a' ++ m <+: a ++ m := by
      refine List.prefix_of_prefix_length_le ⟨b', hcs'.symm⟩ ⟨b, hcs.symm⟩ ?_
      simp only [List.length_append]
      omega
    obtain ⟨y, hy⟩ := hprefix
    exact Nat.not_le_of_lt hlt (hclear a' y hy.symm)

/-- No mark begins in a text in which it does not stand, unless the text ends in the beginning of
a mark whose rest begins a mark again. -/
theorem clear_iff (hm : m ≠ []) : Clear m a ↔
    ¬ m <:+: a ∧ ∀ u v, m = u ++ v → u ≠ [] → v ≠ [] → u <:+ a → ¬ v <+: m := by
  constructor
  · intro hclear
    constructor
    · rintro ⟨x, y, rfl⟩
      have hle := hclear x (y ++ m) (by simp)
      have := List.length_pos_iff.2 hm
      simp only [List.length_append] at hle
      omega
    · rintro u v hmark hu - ⟨x, rfl⟩ ⟨w, hw⟩
      have hle : (x ++ u).length ≤ x.length := by
        apply hclear x w
        calc x ++ u ++ m = x ++ (u ++ v) ++ w := by rw [← hw]; simp
          _ = x ++ m ++ w := by rw [← hmark]
      have := List.length_pos_iff.2 hu
      simp only [List.length_append] at hle
      omega
  · rintro ⟨hfree, hborder⟩ x y hxy
    refine Nat.le_of_not_lt fun hlt => ?_
    -- the mark begins in the text, and ends in it or in the mark that follows
    have hprefix : x <+: a := by
      refine List.prefix_of_prefix_length_le ⟨m ++ y, by rw [hxy]; simp⟩ (List.prefix_append a m) ?_
      omega
    obtain ⟨u, rfl⟩ := hprefix
    have hu : u ++ m = m ++ y := by simpa using hxy
    obtain hle | hle := Nat.lt_or_ge u.length m.length
    · obtain ⟨v, hv⟩ := List.prefix_of_prefix_length_le ⟨m, hu⟩ (List.prefix_append m y)
        (Nat.le_of_lt hle)
      refine hborder u v hv.symm ?_ ?_ ⟨x, rfl⟩ ?_
      · rintro rfl
        simp at hlt
      · rintro rfl
        simp [← hv] at hle
      · have hrest : u ++ (v ++ y) = u ++ m := by rw [hu, ← List.append_assoc, hv]
        exact ⟨y, List.append_cancel_left hrest⟩
    · have hmark : m <+: u :=
        List.prefix_of_prefix_length_le ⟨y, hu.symm⟩ (List.prefix_append u m) hle
      exact hfree (hmark.isInfix.trans ⟨x, [], by simp⟩)

/-- No single character begins in a text in which it does not stand. -/
theorem clear_singleton_iff : Clear [c] a ↔ c ∉ a := by
  rw [clear_iff (by simp)]
  constructor
  · rintro ⟨hfree, -⟩ hc
    obtain ⟨x, y, rfl⟩ := List.append_of_mem hc
    exact hfree ⟨x, y, by simp⟩
  · intro hc
    refine ⟨fun h => hc (h.subset (by simp)), fun u v hmark hu hv => ?_⟩
    obtain ⟨rfl, rfl⟩ | ⟨rfl, rfl⟩ := List.append_eq_singleton_iff.1 hmark.symm
    · exact absurd rfl hu
    · exact absurd rfl hv

/-- A character that stands twice begins in a text in which it stands twice, or in which it comes
last. -/
theorem clear_pair_iff : Clear [c, c] a ↔ ¬ [c, c] <:+: a ∧ ¬ [c] <:+ a := by
  rw [clear_iff (by simp)]
  refine and_congr_right fun _ => ⟨fun h hc => ?_, fun hc u v hmark hu hv hsuffix => ?_⟩
  · exact h [c] [c] rfl (by simp) (by simp) hc ⟨[c], rfl⟩
  · obtain _ | ⟨d, u⟩ := u
    · exact absurd rfl hu
    obtain ⟨rfl, htail⟩ := List.cons.inj hmark
    obtain ⟨rfl, rfl⟩ | ⟨rfl, rfl⟩ := List.append_eq_singleton_iff.1 htail.symm
    · exact absurd hsuffix hc
    · exact absurd rfl hv

/-- A character that is not in the mark parts the marks before it from those after it. -/
theorem infix_append_cons_iff (hm : m ≠ []) (hc : c ∉ m) :
    m <:+: n ++ c :: t ↔ m <:+: n ∨ m <:+: t := by
  constructor
  · intro h
    by_cases hn : m <:+: n
    · exact .inl hn
    · have hcut := cut?_append_cons hm hc (cut?_eq_none_iff.2 hn) t
      refine .inr (Classical.byContradiction fun ht => ?_)
      rw [cut?_eq_none_iff.2 ht, Option.map_none, cut?_eq_none_iff] at hcut
      exact hcut h
  · rintro (h | h)
    · exact h.trans ⟨[], c :: t, by simp⟩
    · exact h.trans ⟨n ++ [c], [], by simp⟩

theorem clear_append_cons (hm : m ≠ []) (hc : c ∉ m) (hn : ¬ m <:+: n) (ht : Clear m t) :
    Clear m (n ++ c :: t) := by
  obtain ⟨hfree, hborder⟩ := (clear_iff hm).1 ht
  refine (clear_iff hm).2 ⟨fun h => ?_, fun u v hmark hu hv hsuffix => hborder u v hmark hu hv ?_⟩
  · exact ((infix_append_cons_iff hm hc).1 h).elim hn hfree
  · obtain hle | hle := Nat.lt_or_ge t.length u.length
    · have hsuffix' : c :: t <:+ u :=
        List.suffix_of_suffix_length_le ⟨n, rfl⟩ hsuffix (Nat.succ_le_of_lt hle)
      exact absurd (hmark ▸ List.mem_append_left v (hsuffix'.subset (by simp))) hc
    · exact List.suffix_of_suffix_length_le hsuffix ⟨n ++ [c], by simp⟩ hle

/-! ## All the marks -/

theorem pieces_of_none (h : cut? (x :: m) cs = none) : pieces x m cs = [cs] := by
  rw [pieces]
  split
  · rfl
  · rename_i hcut
    rw [h] at hcut
    cases hcut

theorem pieces_of_some (h : cut? (x :: m) cs = some (a, b)) :
    pieces x m cs = a :: pieces x m b := by
  rw [pieces]
  split
  · rename_i hcut
    rw [h] at hcut
    cases hcut
  · rename_i hcut
    rw [h] at hcut
    cases hcut
    rfl

/-- **A character that is not in the mark keeps the marks before it from those after it.** -/
theorem pieces_append_cons (hc : c ∉ x :: m) (cs : List Char) :
    ∃ before last, pieces x m cs = before ++ [last] ∧
      ∀ t first after, pieces x m t = first :: after →
        pieces x m (cs ++ c :: t) = before ++ (last ++ c :: first) :: after := by
  fun_induction pieces x m cs with
  | case1 cs h =>
    refine ⟨[], cs, rfl, fun t first after ht => ?_⟩
    have hcut := cut?_append_cons (List.cons_ne_nil x m) hc h t
    rw [List.nil_append]
    cases hrest : cut? (x :: m) t with
    | none =>
      rw [pieces_of_none hrest] at ht
      cases ht
      exact pieces_of_none (by rw [hcut, hrest]; rfl)
    | some parts =>
      obtain ⟨b, d⟩ := parts
      rw [pieces_of_some hrest] at ht
      cases ht
      exact pieces_of_some (by rw [hcut, hrest]; rfl)
  | case2 cs first' rest h ih =>
    obtain ⟨before, last, hpieces, hall⟩ := ih
    refine ⟨first' :: before, last, by rw [hpieces]; rfl, fun t first after ht => ?_⟩
    rw [pieces_of_some (cut?_append h (c :: t)), hall t first after ht]
    rfl

/-- The texts that come out if a text is cut at the first mark, and what follows it again. -/
inductive Pieces (mark : List Char) : List Char → List (List Char) → Prop
  | last (cs : List Char) : ¬ mark <:+: cs → Pieces mark cs [cs]
  | cut (a b : List Char) (ps : List (List Char)) :
    Clear mark a → Pieces mark b ps → Pieces mark (a ++ mark ++ b) (a :: ps)

theorem pieces_pieces (x : Char) (m cs : List Char) : Pieces (x :: m) cs (pieces x m cs) := by
  fun_induction pieces x m cs with
  | case1 cs h => exact .last cs (cut?_eq_none_iff.1 h)
  | case2 cs a b h ih =>
    obtain ⟨rfl, hclear⟩ := cut?_eq_some_iff_clear.1 h
    exact .cut a b _ hclear ih

/-- **There is one way to cut a text into pieces.** -/
theorem pieces_iff : Pieces (x :: m) cs ps ↔ ps = pieces x m cs := by
  constructor
  · intro h
    induction h with
    | last cs h => rw [pieces_of_none (cut?_eq_none_iff.2 h)]
    | cut a b ps hclear _ ih => rw [pieces_of_some (cut?_eq_some_iff_clear.2 ⟨rfl, hclear⟩), ih]
  · rintro rfl
    exact pieces_pieces x m cs

/-! ## Single characters -/

/-- To cut wherever one character stands is to split there. -/
theorem splitAt_eq_splitOn (c : Char) (cs : List Char) : splitAt c cs = cs.splitOn c := by
  have hpieces := pieces_pieces c [] cs
  rw [splitAt]
  generalize pieces c [] cs = ps at hpieces ⊢
  induction hpieces with
  | last cs h =>
    have hc : c ∉ cs := fun hmem => h ((List.singleton_infix_iff c cs).2 hmem)
    rw [List.splitOn_eq_singleton hc]
  | cut a b ps hclear _ ih =>
    have ha : c ∉ a := clear_singleton_iff.1 hclear
    rw [List.append_assoc, List.singleton_append, List.splitOn_append_cons_self,
      List.splitOn_eq_singleton ha, ih]
    rfl

theorem not_mem_of_mem_splitAt {p : List Char} (h : p ∈ splitAt c cs) : c ∉ p := by
  have hpieces := pieces_pieces c [] cs
  rw [splitAt] at h
  generalize pieces c [] cs = ps at hpieces h
  induction hpieces with
  | last cs hfree =>
    obtain rfl := List.mem_singleton.1 h
    exact fun hmem => hfree ((List.singleton_infix_iff c _).2 hmem)
  | cut a b ps hclear _ ih =>
    rcases List.mem_cons.1 h with rfl | h
    · exact clear_singleton_iff.1 hclear
    · exact ih h

end Correlator.Text
