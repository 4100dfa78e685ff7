import Mathlib.Data.List.Perm.Basic
import Correlator.Gates

/-!
# Whoever waits at gates

* `Gates.perm_release`: whoever waits at a gate goes through or waits on.
* `Gates.mem_release`: with a pass for everybody who waits, whoever waits at the gate goes through.
* `Gates.waiting_arrive`: a task that comes to a gate goes right through or waits there.
-/

namespace Correlator.Gates

variable {α : Type} {g : Gates α} {gate : String} {t : α}

theorem perm_of_takeFirst {waiting waiting' : List (String × α)}
    (h : takeFirst gate waiting = some (t, waiting')) : ((gate, t) :: waiting').Perm waiting := by
  induction waiting generalizing waiting' with
  | nil => cases h
  | cons w rest ih =>
    obtain ⟨gate', task⟩ := w
    unfold takeFirst at h
    split at h
    · rename_i hgate
      subst hgate
      cases h
      exact .refl _
    · obtain ⟨⟨found, rest'⟩, hrest, he⟩ := Option.map_eq_some_iff.1 h
      cases he
      exact (List.Perm.swap _ _ _).trans ((ih hrest).cons (gate', task))

theorem takeFirst_eq_none {waiting : List (String × α)} (h : takeFirst gate waiting = none) :
    ∀ t, (gate, t) ∉ waiting := by
  induction waiting with
  | nil => simp
  | cons w rest ih =>
    obtain ⟨gate', task⟩ := w
    unfold takeFirst at h
    split at h
    · cases h
    · rename_i hgate
      intro t ht
      rcases List.mem_cons.1 ht with he | hrest
      · exact hgate (Prod.mk.inj he).1.symm
      · exact ih (Option.map_eq_none_iff.1 h) t hrest

/-- Whoever waits goes through or waits on. -/
theorem perm_release (g : Gates α) (gate : String) (n : Nat) :
    ((g.release gate n).2.map ((gate, ·)) ++ (g.release gate n).1.waiting).Perm g.waiting := by
  induction n generalizing g with
  | zero => exact .refl _
  | succ n ih =>
    unfold release
    cases htake : takeFirst gate g.waiting with
    | none => exact .refl _
    | some found =>
      obtain ⟨t, waiting⟩ := found
      exact ((ih { g with waiting }).cons (gate, t)).trans (perm_of_takeFirst htake)

/-- With a pass for everybody who waits, whoever waits at the gate goes through. -/
theorem mem_release {n : Nat} (hn : g.waiting.length ≤ n) (ht : (gate, t) ∈ g.waiting) :
    t ∈ (g.release gate n).2 := by
  induction n generalizing g with
  | zero =>
    rw [List.length_eq_zero_iff.1 (Nat.le_zero.1 hn)] at ht
    cases ht
  | succ n ih =>
    unfold release
    cases htake : takeFirst gate g.waiting with
    | none => exact absurd ht (takeFirst_eq_none htake t)
    | some found =>
      obtain ⟨t', waiting⟩ := found
      have hperm := perm_of_takeFirst htake
      rcases List.mem_cons.1 (hperm.mem_iff.2 ht) with he | hrest
      · cases he
        exact List.mem_cons_self
      · refine List.mem_cons_of_mem t' (ih (g := { g with waiting }) ?_ hrest)
        have hlength := hperm.length_eq
        rw [List.length_cons] at hlength
        show waiting.length ≤ n
        omega

/-- A task that comes to a gate goes right through or waits there. -/
theorem waiting_arrive (g : Gates α) (gate : String) (t : α) :
    (g.arrive gate t).1.waiting =
      if (g.arrive gate t).2 then g.waiting else g.waiting ++ [(gate, t)] := by
  unfold arrive
  split <;> rfl

end Correlator.Gates
