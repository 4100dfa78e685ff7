import Correlator.Event.Basic
import Correlator.Text.Blank
import Correlator.Text.Cut

/-!
# Templates

A template is a text in which `⟨⟨name⟩⟩`, written with two braces on each side, stands for an
attribute of an event.

* `Template.Segment`: a literal text, or the name of an attribute.
* `Template.segments`: the segments of a text, from left to right. The text between the first two
  opening braces and the next two closing ones is a name; where none close, the rest is literal.
* `Template.isDynamic`: there is a name in it.
* `Template.render`: each name replaced by the text of that attribute, which is never looked at
  again.

`Template.writeAll_segments` says that the segments are the template: nothing is lost or added.
-/

namespace Correlator.Template

open Text

/-- A piece of a template. -/
inductive Segment
  | literal (text : List Char)
  | attribute (name : List Char)
  deriving DecidableEq, Repr

/-- Two opening braces. -/
def opening : List Char := ['\x7b', '\x7b']

/-- Two closing braces. -/
def closing : List Char := ['\x7d', '\x7d']

/-- The segments of a text. -/
def segments (cs : List Char) : List Segment :=
  match _h : cut? opening cs with
  | none => [.literal cs]
  | some (before, rest) =>
    match _h' : cut? closing rest with
    | none => [.literal cs]
    | some (name, rest') => .literal before :: .attribute name :: segments rest'
termination_by cs.length
decreasing_by
  exact Nat.lt_trans (cut?_shorter (by simp [closing]) _h') (cut?_shorter (by simp [opening]) _h)

/-- A segment as it stands in a template. -/
def Segment.write : Segment → List Char
  | .literal text => text
  | .attribute name => opening ++ name ++ closing

/-- **The segments make up the template.** -/
theorem writeAll_segments (cs : List Char) : (segments cs).flatMap Segment.write = cs := by
  fun_induction segments cs with
  | case1 cs h => simp [Segment.write]
  | case2 cs before rest h h' => simp [Segment.write]
  | case3 cs before rest h name rest' h' ih =>
    simp only [List.flatMap_cons, ih, Segment.write]
    rw [cut?_eq_some h, cut?_eq_some h']
    simp

/-- What a segment stands for: a literal for itself, a name for the text of the attribute that is
called so but for white space at its ends, or for nothing. -/
def Segment.text (m : Metadata) : Segment → List Char
  | .literal text => text
  | .attribute name => ((m.text? (String.ofList (trim name))).getD "").toList

/-- Whether there is a name in the template. -/
def isDynamic (template : String) : Bool :=
  match cut? opening template.toList with
  | some (_, rest) => hasMark closing rest
  | none => false

/-- The template with each name replaced by the text of that attribute of the event. -/
def render (template : String) (e : Event) : String :=
  String.ofList ((segments template.toList).flatMap (Segment.text e.metadata))

end Correlator.Template
