import Correlator.Proofs.Template
import Mathlib.Logic.ExistsUnique

/-!
# Templates taken apart

A template is a row of literals with names between them, in their braces. There is one way to take
it apart so that no braces are left over that could have been those of a name.

* `Template.Parts`, `Template.Parts.template`: literals and names, and the template that is put
  together of them.
* `Template.Parts.Proper`: no opening braces begin in a literal, no closing ones in a name, and
  behind the last name there is no other.
* `Template.Parts.segments_template`, `Template.exists_parts`: proper parts are the segments of
  their template, and every text has such parts.
* **`Template.taken_apart`**: every text is a template in just one way, and in what it stands for
  the literals stay as they are and the names become attributes.
-/

namespace Correlator.Template

open Text

variable {cs : List Char}

/-- The parts of a template: literals, each with the name that comes after it, and what comes after
the last name. -/
structure Parts where
  named : List (List Char × List Char)
  last : List Char

/-- What the name of an attribute stands for, less the white space around it: nothing if there is no
such attribute or if it is null, a string as it is, and any other value in its written form. -/
def attributeText (m : Metadata) (name : List Char) : List Char :=
  match m.get? (String.ofList (trim name)) with
  | none => []
  | some .null => []
  | some (.str s) => s.toList
  | some value => value.render.toList

theorem text_attribute (m : Metadata) (name : List Char) :
    Segment.text m (.attribute name) = attributeText m name := by
  simp only [Segment.text, Metadata.text?, attributeText]
  split <;> simp_all

namespace Parts

variable {p q : Parts}

/-- The template that is put together of the parts. -/
def template (p : Parts) : List Char :=
  p.named.flatMap (fun (literal, name) => literal ++ opening ++ name ++ closing) ++ p.last

/-- What the template stands for. -/
def filled (m : Metadata) (p : Parts) : List Char :=
  p.named.flatMap (fun (literal, name) => literal ++ attributeText m name) ++ p.last

/-- The parts in a row. -/
def segments (p : Parts) : List Segment :=
  p.named.flatMap (fun (literal, name) => [.literal literal, .attribute name]) ++ [.literal p.last]

/-- No braces in the literals could be those of a name, and none in a name could end it. -/
structure Proper (p : Parts) : Prop where
  literal : ∀ part ∈ p.named, ¬ opening <:+: part.1 ∧ ¬ ['\x7b'] <:+ part.1
  name : ∀ part ∈ p.named, ¬ closing <:+: part.2 ∧ ¬ ['\x7d'] <:+ part.2
  last : ∀ a b c, p.last ≠ a ++ opening ++ b ++ closing ++ c

theorem Proper.not_hasName (h : p.Proper) : ¬ HasName p.last :=
  fun ⟨a, b, c, hlast⟩ => h.last a b c hlast

/-- A text without names is a literal. -/
theorem proper_of_static {cs : List Char} (h : ¬ HasName cs) : Proper ⟨[], cs⟩ :=
  ⟨List.forall_mem_nil _, List.forall_mem_nil _, fun a b c hcs => h ⟨a, b, c, hcs⟩⟩

/-- The parts of what is behind the first name. -/
theorem Proper.tail {part : List Char × List Char} {named : List (List Char × List Char)}
    {last : List Char} (h : Proper ⟨part :: named, last⟩) : Proper ⟨named, last⟩ :=
  ⟨fun part hmem => h.literal part (List.mem_cons_of_mem _ hmem),
    fun part hmem => h.name part (List.mem_cons_of_mem _ hmem), h.last⟩

/-- **Proper parts are the segments of their template.** -/
theorem segments_template (h : p.Proper) : Template.segments p.template = p.segments := by
  obtain ⟨named, last⟩ := p
  induction named with
  | nil => exact segments_of_static h.not_hasName
  | cons part named ih =>
    obtain ⟨l, n⟩ := part
    have hopening : Clear opening l := clear_pair_iff.2 (h.literal (l, n) (List.mem_cons_self ..))
    have hclosing : Clear closing n := clear_pair_iff.2 (h.name (l, n) (List.mem_cons_self ..))
    have hcut : cut? opening (template ⟨(l, n) :: named, last⟩) =
        some (l, n ++ closing ++ template ⟨named, last⟩) :=
      cut?_eq_some_iff_clear.2 ⟨by simp [template], hopening⟩
    have hcut' : cut? closing (n ++ closing ++ template ⟨named, last⟩) =
        some (n, template ⟨named, last⟩) :=
      cut?_eq_some_iff_clear.2 ⟨rfl, hclosing⟩
    rw [segments_of_cut? hcut hcut', ih h.tail]
    rfl

theorem flatMap_text_segments (m : Metadata) (p : Parts) :
    p.segments.flatMap (Segment.text m) = p.filled m := by
  have hpart (l n : List Char) : [.literal l, .attribute n].flatMap (Segment.text m) =
      l ++ attributeText m n := by
    rw [List.flatMap_cons, List.flatMap_cons, List.flatMap_nil, List.append_nil, text_attribute]
    rfl
  have hlast : [.literal p.last].flatMap (Segment.text m) = p.last := List.append_nil _
  simp only [segments, filled, List.flatMap_append, List.flatMap_assoc, hpart, hlast]

/-- Parts can be told from their row. -/
theorem eq_of_segments (h : p.segments = q.segments) : p = q := by
  obtain ⟨named, last⟩ := p
  obtain ⟨named', last'⟩ := q
  induction named generalizing named' with
  | nil =>
    cases named' with
    | nil => simpa [segments] using h
    | cons part' named' => simp [segments] at h
  | cons part named ih =>
    cases named' with
    | nil => simp [segments] at h
    | cons part' named' =>
      simp only [segments, List.flatMap_cons, List.cons_append, List.nil_append, List.cons.injEq,
        Segment.literal.injEq, Segment.attribute.injEq] at h
      obtain ⟨hliteral, hname, hrest⟩ := h
      obtain ⟨rfl, rfl⟩ := mk.inj (ih named' hrest)
      rw [Prod.ext hliteral hname]

end Parts

theorem exists_parts (cs : List Char) : ∃ p : Parts, p.Proper ∧ p.template = cs := by
  fun_induction segments cs with
  | case1 cs hcut =>
    have hstatic := not_hasName_of_cut? hcut
    exact ⟨⟨[], cs⟩, Parts.proper_of_static hstatic, List.nil_append cs⟩
  | case2 cs before rest hcut hcut' =>
    have hstatic : ¬ HasName cs := by
      rw [hasName_of_cut? hcut]
      exact cut?_eq_none_iff.1 hcut'
    exact ⟨⟨[], cs⟩, Parts.proper_of_static hstatic, List.nil_append cs⟩
  | case3 cs before rest hcut name rest' hcut' ih =>
    obtain ⟨⟨named, last⟩, hproper, rfl⟩ := ih
    obtain ⟨rfl, hopening⟩ := cut?_eq_some_iff_clear.1 hcut
    obtain ⟨rfl, hclosing⟩ := cut?_eq_some_iff_clear.1 hcut'
    refine ⟨⟨(before, name) :: named, last⟩, ⟨?_, ?_, hproper.last⟩, by simp [Parts.template]⟩
    · exact List.forall_mem_cons.2 ⟨clear_pair_iff.1 hopening, hproper.literal⟩
    · exact List.forall_mem_cons.2 ⟨clear_pair_iff.1 hclosing, hproper.name⟩

theorem Parts.Proper.unique {p q : Parts} (hp : p.Proper) (hq : q.Proper)
    (h : p.template = q.template) : p = q := by
  apply Parts.eq_of_segments
  rw [← Parts.segments_template hp, ← Parts.segments_template hq, h]

/-- There is a name in a template just when one of the literals comes before a name. -/
theorem Parts.Proper.isDynamic_iff {p : Parts} (h : p.Proper) :
    isDynamic (String.ofList p.template) = true ↔ p.named ≠ [] := by
  rw [← Bool.not_eq_false, isDynamic_eq_false_iff, String.toList_ofList]
  refine not_congr ⟨fun hstatic => ?_, fun hnamed hname => ?_⟩
  · have hlast : Parts.segments p = Parts.segments ⟨[], p.template⟩ :=
      (Parts.segments_template h).symm.trans (segments_of_static hstatic)
    exact congrArg Parts.named (Parts.eq_of_segments hlast)
  · rw [Parts.template, hnamed] at hname
    exact h.not_hasName hname

/-- **Every text is a template in just one way**: there are literals and names that it is put
together of, with no braces left over, and no others. In what it stands for the literals are as they
were, and in the place of each name stands the text of that attribute, whatever is in it. -/
theorem taken_apart :
    (∀ t : String, ∃! p : Parts, p.Proper ∧ p.template = t.toList) ∧
    ∀ p : Parts, p.Proper → ∀ e : Event,
      render (String.ofList p.template) e = String.ofList (p.filled e.metadata) := by
  constructor
  · intro t
    obtain ⟨p, hproper, htemplate⟩ := exists_parts t.toList
    refine ⟨p, ⟨hproper, htemplate⟩, ?_⟩
    rintro q ⟨hproper', htemplate'⟩
    exact hproper'.unique hproper (htemplate'.trans htemplate.symm)
  · intro p hproper e
    rw [render_eq, String.toList_ofList, Template.filled, Parts.segments_template hproper,
      Parts.flatMap_text_segments]

/-- Three braces in a row, white space around a name, braces that are not closed, and an attribute
that looks like a name in its braces. -/
theorem taken_apart_braces :
    Parts.Proper ⟨[(['a'], ['\x7b', 'x']), (['\x7d', 'b'], [' ', 'y', ' '])], ['\x7b', '\x7b']⟩ ∧
    render "a\x7b\x7b\x7bx\x7d\x7d\x7db\x7b\x7b y \x7d\x7d\x7b\x7b"
        ⟨"", ⟨[("\x7bx", .str "\x7b\x7by\x7d\x7d"), ("y", .bool true)]⟩⟩ =
      "a\x7b\x7by\x7d\x7d\x7dbtrue\x7b\x7b" := by
  have hproper : Parts.Proper
      ⟨[(['a'], ['\x7b', 'x']), (['\x7d', 'b'], [' ', 'y', ' '])], ['\x7b', '\x7b']⟩ := by
    refine ⟨by decide, by decide, fun a b c hlast => ?_⟩
    exact (isDynamic_eq_false_iff "\x7b\x7b").1 (by decide) ⟨a, b, c, hlast⟩
  exact ⟨hproper, (taken_apart.2 _ hproper _).trans (by decide +kernel)⟩

end Correlator.Template
