import Mathlib.Data.List.TakeWhile
import Correlator.Text.Blank

/-!
# White space within a text

* `strip_append_cons`: a text is stripped up to a character that stays, from either side.
* `strip_append`: what is stripped may stand at the ends of a text or not.
* `exists_strip`: what is stripped stands at the ends; `strip_strip`: it is all stripped at once.
-/

namespace Correlator.Text

variable {p : Char → Bool} {c : Char} {l r : List Char}

theorem dropWhile_append_cons (hc : p c = false) (a b : List Char) :
    (a ++ c :: b).dropWhile p = a.dropWhile p ++ c :: b := by
  induction a with
  | nil => simp [hc]
  | cons d a ih =>
    rw [List.cons_append, List.dropWhile_cons, List.dropWhile_cons]
    split
    · exact ih
    · rfl

theorem dropEndWhile_append_cons (hc : p c = false) (a b : List Char) :
    dropEndWhile p (a ++ c :: b) = a ++ c :: dropEndWhile p b := by
  simp [dropEndWhile, dropWhile_append_cons hc]

/-- Nothing is stripped beyond a character that stays. -/
theorem strip_append_cons (hc : p c = false) (a b : List Char) :
    strip p (a ++ c :: b) = a.dropWhile p ++ c :: dropEndWhile p b := by
  rw [strip, dropWhile_append_cons hc, dropEndWhile_append_cons hc]

theorem dropEndWhile_append (hr : ∀ c ∈ r, p c = true) (cs : List Char) :
    dropEndWhile p (cs ++ r) = dropEndWhile p cs := by
  rw [dropEndWhile, List.reverse_append, List.dropWhile_append_of_pos (by simpa using hr),
    dropEndWhile]

theorem strip_eq_nil (h : ∀ c ∈ l, p c = true) : strip p l = [] := by
  rw [strip, List.dropWhile_eq_nil_iff.2 h]
  rfl

/-- What is stripped at the ends of a text is as good as not there. -/
theorem strip_append (hl : ∀ c ∈ l, p c = true) (hr : ∀ c ∈ r, p c = true) (cs : List Char) :
    strip p (l ++ cs ++ r) = strip p cs := by
  by_cases h : ∀ c ∈ cs, p c = true
  · rw [strip_eq_nil h, strip_eq_nil]
    simp only [List.forall_mem_append]
    exact ⟨⟨hl, h⟩, hr⟩
  · obtain ⟨c, hmem, hc⟩ : ∃ c ∈ cs, p c = false := by simpa using h
    obtain ⟨a, b, rfl⟩ := List.append_of_mem hmem
    have hsplit : l ++ (a ++ c :: b) ++ r = (l ++ a) ++ c :: (b ++ r) := by simp
    rw [hsplit, strip_append_cons hc, strip_append_cons hc, List.dropWhile_append_of_pos hl,
      dropEndWhile_append hr]

theorem strip_append_left (hl : ∀ c ∈ l, p c = true) (cs : List Char) :
    strip p (l ++ cs) = strip p cs := by
  simpa only [List.append_nil] using strip_append hl (List.forall_mem_nil _) cs

theorem strip_append_right (hr : ∀ c ∈ r, p c = true) (cs : List Char) :
    strip p (cs ++ r) = strip p cs :=
  strip_append (List.forall_mem_nil _) hr cs

theorem strip_dropWhile (p : Char → Bool) (cs : List Char) :
    strip p (cs.dropWhile p) = strip p cs := by
  conv => rhs; rw [← List.takeWhile_append_dropWhile (p := p) (l := cs)]
  exact (strip_append_left (fun c hc => List.mem_takeWhile_imp hc) _).symm

/-! ## What is left -/

/-- A text less the characters of a class at its end, with those behind it. -/
theorem dropEndWhile_append_takeWhile (p : Char → Bool) (cs : List Char) :
    dropEndWhile p cs ++ (cs.reverse.takeWhile p).reverse = cs := by
  rw [dropEndWhile, ← List.reverse_append, List.takeWhile_append_dropWhile, List.reverse_reverse]

theorem strip_dropEndWhile (p : Char → Bool) (cs : List Char) :
    strip p (dropEndWhile p cs) = strip p cs := by
  conv => rhs; rw [← dropEndWhile_append_takeWhile p cs]
  exact (strip_append_right
    (fun c hc => List.mem_takeWhile_imp (List.mem_reverse.1 hc)) _).symm

/-- What is stripped of a text stands at its ends. -/
theorem exists_strip (p : Char → Bool) (cs : List Char) :
    ∃ l r, cs = l ++ strip p cs ++ r ∧ (∀ c ∈ l, p c = true) ∧ ∀ c ∈ r, p c = true := by
  refine ⟨cs.takeWhile p, ((cs.dropWhile p).reverse.takeWhile p).reverse, ?_, ?_, ?_⟩
  · rw [strip, List.append_assoc, dropEndWhile_append_takeWhile, List.takeWhile_append_dropWhile]
  · exact fun c hc => List.mem_takeWhile_imp hc
  · exact fun c hc => List.mem_takeWhile_imp (List.mem_reverse.1 hc)

theorem strip_strip (p : Char → Bool) (cs : List Char) : strip p (strip p cs) = strip p cs := by
  obtain ⟨l, r, hcs, hl, hr⟩ := exists_strip p cs
  calc strip p (strip p cs) = strip p (l ++ strip p cs ++ r) := (strip_append hl hr _).symm
    _ = strip p cs := by rw [← hcs]

theorem mem_of_mem_strip (h : c ∈ strip p l) : c ∈ l := by
  obtain ⟨l', r, hl, -⟩ := exists_strip p l
  rw [hl]
  exact List.mem_append_left r (List.mem_append_right l' h)

end Correlator.Text
