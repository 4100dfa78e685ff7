import Correlator.Proofs.Text.Cut
import Correlator.Template

/-!
# Templates put together

A template without names stands for itself. One that is put together of stretches stands for what
these stand for, as long as no name reaches from one of them into the next.

* `Template.isDynamic_eq_false_iff`, `Template.render_of_static`: there is a name in a template just
  when opening braces stand before closing ones; without a name it is never changed.
* `Template.filled`: the text that a template stands for.
* `Template.spans`: from where to where the names of a template stand, with their braces.
* `Template.Parted`: no name of a text reaches over a place; `Template.Parted.append`: then
  the text may be parted there.
* `Template.Stretch`, `Template.Confined`: stretches of fixed and of varying text, with names in the
  varying ones only.
* **`Template.Confined.filled`**: then the fixed stretches stay as they are.
-/

namespace Correlator.Template

open Text

variable {cs l r before rest name rest' : List Char} {m : Metadata}

/-! ## Templates without names -/

/-- Opening braces stand in the text, and closing ones behind them. -/
def HasName (cs : List Char) : Prop := ∃ a b c, cs = a ++ opening ++ b ++ closing ++ c

theorem hasName_of_cut? (h : cut? opening cs = some (before, rest)) :
    HasName cs ↔ closing <:+: rest := by
  constructor
  · rintro ⟨a, b, c, hcs⟩
    have hsplit : cs = a ++ opening ++ (b ++ closing ++ c) := by simp [hcs]
    have hle := length_le_of_cut? h hsplit
    have hwhole := (cut?_eq_some h).symm.trans hsplit
    have hsuffix : b ++ closing ++ c <:+ rest := by
      refine List.suffix_of_suffix_length_le ⟨a ++ opening, hwhole.symm⟩ ⟨before ++ opening, rfl⟩ ?_
      have := congrArg List.length hwhole
      simp only [List.length_append] at this ⊢
      omega
    exact List.IsInfix.trans ⟨b, c, rfl⟩ hsuffix.isInfix
  · rintro ⟨b, c, rfl⟩
    exact ⟨before, b, c, by simp [cut?_eq_some h]⟩

theorem not_hasName_of_cut? (h : cut? opening cs = none) : ¬ HasName cs := by
  rintro ⟨a, b, c, rfl⟩
  exact cut?_eq_none_iff.1 h ⟨a, b ++ closing ++ c, by simp⟩

/-- There is a name in a template just when opening braces stand before closing ones. -/
theorem isDynamic_eq_false_iff (t : String) : isDynamic t = false ↔ ¬ HasName t.toList := by
  unfold isDynamic
  cases h : cut? opening t.toList with
  | none => simp [not_hasName_of_cut? h]
  | some parts =>
    obtain ⟨before, rest⟩ := parts
    rw [hasName_of_cut? h, ← hasMark_iff, Bool.eq_false_iff]

/-- A text without names is one segment. -/
theorem segments_of_static (h : ¬ HasName cs) : segments cs = [.literal cs] := by
  unfold segments
  split
  · rfl
  · rename_i before rest hcut
    rw [hasName_of_cut? hcut, ← cut?_eq_none_iff] at h
    split
    · rfl
    · rename_i hcut'
      rw [h] at hcut'
      cases hcut'

/-- The text that a template stands for. -/
def filled (m : Metadata) (cs : List Char) : List Char := (segments cs).flatMap (Segment.text m)

theorem render_eq (t : String) (e : Event) :
    render t e = String.ofList (filled e.metadata t.toList) := rfl

theorem filled_of_static (m : Metadata) (h : ¬ HasName cs) : filled m cs = cs := by
  simp [filled, segments_of_static h, Segment.text]

/-- **A template without names stands for itself**, whatever the event. -/
theorem render_of_static {t : String} (h : isDynamic t = false) (e : Event) : render t e = t := by
  rw [render_eq, filled_of_static _ ((isDynamic_eq_false_iff t).1 h), String.ofList_toList]

/-! ## Where the names stand -/

/-- From where to where names stand in segments that begin at a place. -/
def spansFrom (start : Nat) : List Segment → List (Nat × Nat)
  | [] => []
  | .literal text :: rest => spansFrom (start + text.length) rest
  | .attribute name :: rest =>
    (start, start + name.length + 4) :: spansFrom (start + name.length + 4) rest

/-- From where to where the names of a template stand, with their braces. -/
def spans (cs : List Char) : List (Nat × Nat) := spansFrom 0 (segments cs)

theorem spansFrom_add (k start : Nat) (ss : List Segment) :
    spansFrom (k + start) ss = (spansFrom start ss).map fun (i, j) => (k + i, k + j) := by
  induction ss generalizing start with
  | nil => rfl
  | cons s ss ih =>
    obtain text | name := s
    · simpa [spansFrom, Nat.add_assoc] using ih (start + text.length)
    · simpa [spansFrom, Nat.add_assoc] using ih (start + name.length + 4)

theorem bounds_of_mem_spansFrom {start : Nat} {ss : List Segment} {i j : Nat}
    (h : (i, j) ∈ spansFrom start ss) :
    i < j ∧ j ≤ start + (ss.flatMap Segment.write).length := by
  induction ss generalizing start with
  | nil => cases h
  | cons s ss ih =>
    rw [List.flatMap_cons, List.length_append]
    obtain text | name := s
    · have := ih h
      simp only [Segment.write]
      omega
    · have hwrite : (Segment.write (.attribute name)).length = name.length + 4 := by
        simp [Segment.write, opening, closing, Nat.add_comm, Nat.add_left_comm]
      rcases List.mem_cons.1 h with hspan | h
      · cases hspan
        omega
      · have := ih h
        omega

/-- A name takes up some of the text. -/
theorem bounds_of_mem_spans {i j : Nat} (h : (i, j) ∈ spans cs) : i < j ∧ j ≤ cs.length := by
  have := bounds_of_mem_spansFrom h
  rwa [writeAll_segments, Nat.zero_add] at this

theorem flatMap_text_of_spansFrom (m : Metadata) {start : Nat} {ss : List Segment}
    (h : spansFrom start ss = []) : ss.flatMap (Segment.text m) = ss.flatMap Segment.write := by
  induction ss generalizing start with
  | nil => rfl
  | cons s ss ih =>
    obtain text | name := s
    · simpa [Segment.text, Segment.write] using ih h
    · cases h

/-- A text in which no names stand is not changed. -/
theorem filled_of_spans (m : Metadata) (h : spans cs = []) : filled m cs = cs := by
  rw [filled, flatMap_text_of_spansFrom m h, writeAll_segments]

theorem spans_of_static (h : ¬ HasName cs) : spans cs = [] := by
  rw [spans, segments_of_static h]
  rfl

/-- The first name of a text and the literal before it, and the segments of the rest. -/
theorem segments_of_cut? (h : cut? opening cs = some (before, rest))
    (h' : cut? closing rest = some (name, rest')) :
    segments cs = .literal before :: .attribute name :: segments rest' := by
  rw [segments]
  split
  · rename_i hcut
    rw [h] at hcut
    cases hcut
  · rename_i hcut
    rw [h] at hcut
    cases hcut
    split
    · rename_i hcut'
      rw [h'] at hcut'
      cases hcut'
    · rename_i hcut'
      rw [h'] at hcut'
      cases hcut'
      rfl

theorem spans_of_cut? (h : cut? opening cs = some (before, rest))
    (h' : cut? closing rest = some (name, rest')) :
    spans cs = (before.length, before.length + name.length + 4) ::
      (spans rest').map fun (i, j) =>
        (before.length + name.length + 4 + i, before.length + name.length + 4 + j) := by
  rw [spans, segments_of_cut? h h', spansFrom, spansFrom, Nat.zero_add, spans, ← spansFrom_add]

theorem filled_of_cut? (m : Metadata) (h : cut? opening cs = some (before, rest))
    (h' : cut? closing rest = some (name, rest')) :
    filled m cs = before ++ Segment.text m (.attribute name) ++ filled m rest' := by
  simp [filled, segments_of_cut? h h', Segment.text]

/-! ## Texts that are parted -/

/-- No name of the text reaches over the place where the first part ends. -/
def Parted (l r : List Char) : Prop :=
  ∀ i j, (i, j) ∈ spans (l ++ r) → j ≤ l.length ∨ l.length ≤ i

/-- There is a name in a text with a name in one of its parts. -/
theorem HasName.append_right (h : HasName l) (r : List Char) : HasName (l ++ r) := by
  obtain ⟨a, b, c, rfl⟩ := h
  exact ⟨a, b, c ++ r, by simp⟩

theorem HasName.append_left (h : HasName r) (l : List Char) : HasName (l ++ r) := by
  obtain ⟨a, b, c, rfl⟩ := h
  exact ⟨l ++ a, b, c, by simp⟩

/-- A template with a name is cut at the first one. -/
theorem HasName.exists_cut? (h : HasName cs) : ∃ before rest name rest',
    cut? opening cs = some (before, rest) ∧ cut? closing rest = some (name, rest') := by
  cases hcut : cut? opening cs with
  | none => exact absurd h (not_hasName_of_cut? hcut)
  | some parts =>
    obtain ⟨before, rest⟩ := parts
    rw [hasName_of_cut? hcut, ← hasMark_iff, hasMark, Option.isSome_iff_exists] at h
    obtain ⟨⟨name, rest'⟩, hcut'⟩ := h
    exact ⟨before, rest, name, rest', rfl, hcut'⟩

/-- **A text may be parted where no name reaches over the place.** -/
theorem Parted.append {l r : List Char} (h : Parted l r) :
    spans (l ++ r) = spans l ++ (spans r).map (fun (i, j) => (l.length + i, l.length + j)) ∧
      ∀ m, filled m (l ++ r) = filled m l ++ filled m r := by
  by_cases hname : HasName (l ++ r)
  · obtain ⟨before, rest, name, rest', hcut, hcut'⟩ := hname.exists_cut?
    have hspans := spans_of_cut? hcut hcut'
    have hfirst := h before.length (before.length + name.length + 4) (by simp [hspans])
    have hlength : opening.length = 2 ∧ closing.length = 2 := ⟨rfl, rfl⟩
    obtain hin | hout := hfirst
    · -- the first name stands in the first part
      obtain ⟨restₗ, rfl, hcutₗ⟩ := cut?_left hcut (by omega)
      have hl := congrArg List.length (cut?_eq_some hcutₗ)
      simp only [List.length_append] at hl
      obtain ⟨l', rfl, hcutₗ'⟩ := cut?_left hcut' (by omega)
      have hl' := congrArg List.length (cut?_eq_some hcutₗ')
      simp only [List.length_append] at hl'
      have hparted : Parted l' r := by
        intro i j hij
        have := h (before.length + name.length + 4 + i) (before.length + name.length + 4 + j)
          (by rw [hspans]; exact List.mem_cons_of_mem _ (List.mem_map.2 ⟨(i, j), hij, rfl⟩))
        omega
      have hshorter : l'.length < l.length := by omega
      obtain ⟨hspans', hfilled⟩ := hparted.append
      constructor
      · rw [hspans, hspans', spans_of_cut? hcutₗ hcutₗ']
        simp only [List.map_append, List.map_map, List.cons_append]
        refine congrArg (_ :: ·) (congrArg (_ ++ ·) (List.map_congr_left fun ⟨i, j⟩ _ => ?_))
        simp only [Function.comp_apply, Prod.mk.injEq]
        omega
      · intro m
        rw [filled_of_cut? m hcut hcut', filled_of_cut? m hcutₗ hcutₗ', hfilled]
        simp
    · -- it stands in the second part
      obtain ⟨before', rfl, hcutᵣ, hnone⟩ := cut?_right (by simp [opening]) hcut hout
      have hstatic := not_hasName_of_cut? hnone
      constructor
      · rw [hspans, spans_of_static hstatic, spans_of_cut? hcutᵣ hcut']
        simp [Nat.add_assoc, Function.comp_def]
      · intro m
        rw [filled_of_cut? m hcut hcut', filled_of_static m hstatic, filled_of_cut? m hcutᵣ hcut']
        simp
  · have hl : ¬ HasName l := fun hl => hname (hl.append_right r)
    have hr : ¬ HasName r := fun hr => hname (hr.append_left l)
    constructor
    · simp [spans_of_static, hname, hl, hr]
    · simp [filled_of_static, hname, hl, hr]
termination_by l.length
decreasing_by
  exact hshorter

/-! ## Stretches -/

/-- A stretch of a template: fixed text, or text that may hold names. -/
inductive Stretch
  | fixed (cs : List Char)
  | varying (cs : List Char)

/-- A stretch as it stands in the template. -/
def Stretch.chars : Stretch → List Char
  | .fixed cs => cs
  | .varying cs => cs

/-- What a stretch stands for: fixed text for itself, and varying text for what it says. -/
def Stretch.filled (m : Metadata) : Stretch → List Char
  | .fixed cs => cs
  | .varying cs => Template.filled m cs

/-- Each name of the template stands within one of the varying stretches. -/
def Confined (ss : List Stretch) : Prop :=
  ∀ i j, (i, j) ∈ spans (ss.flatMap Stretch.chars) →
    ∃ before cs after, ss = before ++ .varying cs :: after ∧
      (before.flatMap Stretch.chars).length ≤ i ∧
      j ≤ (before.flatMap Stretch.chars).length + cs.length

namespace Confined

variable {s : Stretch} {ss : List Stretch}

/-- A name stands within the first stretch, which is then a varying one, or behind it. -/
theorem cases_of_mem {i j : Nat} (h : Confined (s :: ss))
    (hij : (i, j) ∈ spans (s.chars ++ ss.flatMap Stretch.chars)) :
    (∃ cs, s = .varying cs) ∧ j ≤ s.chars.length ∨
      ∃ before cs after, ss = before ++ .varying cs :: after ∧
        s.chars.length + (before.flatMap Stretch.chars).length ≤ i ∧
        j ≤ s.chars.length + (before.flatMap Stretch.chars).length + cs.length := by
  obtain ⟨before, cs, after, hss, hi, hj⟩ := h i j hij
  cases before with
  | nil =>
    obtain ⟨rfl, -⟩ := List.cons.inj hss
    exact .inl ⟨⟨cs, rfl⟩, by simpa [Stretch.chars] using hj⟩
  | cons s' before =>
    rw [List.cons_append, List.cons.injEq] at hss
    obtain ⟨rfl, hss⟩ := hss
    rw [List.flatMap_cons, List.length_append] at hi hj
    exact .inr ⟨before, cs, after, hss, hi, hj⟩

theorem parted (h : Confined (s :: ss)) : Parted s.chars (ss.flatMap Stretch.chars) := by
  intro i j hij
  obtain ⟨-, hj⟩ | ⟨before, cs, after, -, hi, -⟩ := h.cases_of_mem hij
  · exact .inl hj
  · exact .inr (by omega)

theorem tail (h : Confined (s :: ss)) : Confined ss := by
  intro i j hij
  have hmem : (s.chars.length + i, s.chars.length + j) ∈
      spans (s.chars ++ ss.flatMap Stretch.chars) := by
    rw [h.parted.append.1]
    exact List.mem_append_right _ (List.mem_map.2 ⟨(i, j), hij, rfl⟩)
  have hlt := (bounds_of_mem_spans hij).1
  obtain ⟨-, hj⟩ | ⟨before, cs, after, hss, hi, hj⟩ := h.cases_of_mem hmem
  · omega
  · exact ⟨before, cs, after, hss, by omega, by omega⟩

/-- The first stretch says what it stands for, be it fixed or not. -/
theorem filled_head (h : Confined (s :: ss)) (m : Metadata) :
    Template.filled m s.chars = s.filled m := by
  cases s with
  | varying cs => rfl
  | fixed cs =>
    refine filled_of_spans m (List.eq_nil_iff_forall_not_mem.2 fun ⟨i, j⟩ hij => ?_)
    have hbounds := bounds_of_mem_spans hij
    have hmem : (i, j) ∈ spans ((Stretch.fixed cs).chars ++ ss.flatMap Stretch.chars) := by
      rw [h.parted.append.1]
      exact List.mem_append_left _ hij
    obtain ⟨⟨cs', hs⟩, -⟩ | ⟨before, cs', after, -, hi, -⟩ := h.cases_of_mem hmem
    · cases hs
    · simp only [Stretch.chars] at hi hbounds
      omega

/-- **Fixed stretches stay as they are**, and varying ones say what they would say alone. -/
theorem filled (h : Confined ss) (m : Metadata) :
    Template.filled m (ss.flatMap Stretch.chars) = ss.flatMap (Stretch.filled m) := by
  induction ss with
  | nil => exact filled_of_static m fun ⟨a, b, c, h⟩ => by simp [opening] at h
  | cons s ss ih =>
    rw [List.flatMap_cons, List.flatMap_cons, h.parted.append.2, h.filled_head, ih h.tail]

end Confined

end Correlator.Template
