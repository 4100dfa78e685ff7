/-!
# Cutting a text at a mark

* `dropLead? m cs`: the text after the mark `m`, if `cs` begins with it.
* `cut? m cs`: the text before and after the first place where `m` stands in `cs`.
* `pieces m cs`: the texts between the marks, found from the left and without overlap.

The main statements are `cut?_eq_some`, which puts the text together again, and `cut?_shorter`,
by which whatever works on the rest of a cut comes to an end.
-/

namespace Correlator.Text

/-- The text after the mark, if the text begins with the mark. -/
def dropLead? : List Char → List Char → Option (List Char)
  | [], cs => some cs
  | _ :: _, [] => none
  | m :: ms, c :: cs => if m = c then dropLead? ms cs else none

theorem dropLead?_eq_some {m cs rest : List Char} (h : dropLead? m cs = some rest) :
    cs = m ++ rest := by
  induction m generalizing cs with
  | nil => simpa [dropLead?] using h
  | cons a m ih =>
    cases cs with
    | nil => simp [dropLead?] at h
    | cons c cs =>
      by_cases hac : a = c
      · subst hac
        simp only [dropLead?, if_true] at h
        rw [ih h, List.cons_append]
      · simp [dropLead?, hac] at h

/-- The text before and after the first place where the mark stands. -/
def cut? (m : List Char) : List Char → Option (List Char × List Char)
  | [] => if m.isEmpty then some ([], []) else none
  | c :: cs =>
    match dropLead? m (c :: cs) with
    | some rest => some ([], rest)
    | none => (cut? m cs).map fun (before, after) => (c :: before, after)

/-- **A cut loses nothing**: the two parts and the mark between them make up the text. -/
theorem cut?_eq_some {m cs a b : List Char} (h : cut? m cs = some (a, b)) :
    cs = a ++ m ++ b := by
  induction cs generalizing a with
  | nil =>
    cases m with
    | nil => simp_all [cut?]
    | cons x m => simp [cut?] at h
  | cons c cs ih =>
    rw [cut?] at h
    cases hd : dropLead? m (c :: cs) with
    | some rest =>
      rw [hd] at h
      simp only [Option.some.injEq, Prod.mk.injEq] at h
      obtain ⟨rfl, rfl⟩ := h
      simpa using dropLead?_eq_some hd
    | none =>
      rw [hd] at h
      simp only [Option.map_eq_some_iff, Prod.mk.injEq, Prod.exists] at h
      obtain ⟨a', b', hc, rfl, rfl⟩ := h
      simp [ih hc]

/-- What follows a mark that is not empty is shorter than the whole. -/
theorem cut?_shorter {m cs a b : List Char} (hm : m ≠ []) (h : cut? m cs = some (a, b)) :
    b.length < cs.length := by
  have := List.length_pos_iff.2 hm
  rw [cut?_eq_some h]
  simp only [List.length_append]
  omega

/-- Whether the mark stands in the text. -/
def hasMark (m cs : List Char) : Bool := (cut? m cs).isSome

/-- The texts between the marks `x :: m`, found from the left and without overlap. -/
def pieces (x : Char) (m : List Char) (cs : List Char) : List (List Char) :=
  match _h : cut? (x :: m) cs with
  | none => [cs]
  | some (before, after) => before :: pieces x m after
termination_by cs.length
decreasing_by exact cut?_shorter (by simp) _h

/-- The texts between single characters. -/
def splitAt (x : Char) (cs : List Char) : List (List Char) := pieces x [] cs

end Correlator.Text
