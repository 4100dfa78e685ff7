import Mathlib.Data.List.Induction
import Mathlib.Data.Option.Basic

/-!
# Runs

A run takes steps one after another, as long as each of them can be taken.

* `foldlM_cons_of_step`, `foldlM_append_of_run`, `foldlM_snoc_of_run`: a run goes on from where a
  step or a run has led.
* `foldlM_induction`: what each step preserves, a run preserves.
* `foldlM_history`: the same of what is said of a state and of the steps that led there.
-/

namespace Correlator

variable {σ μ : Type*} {step : σ → μ → Option σ} {moves moves' : List μ} {s s' s'' : σ}

theorem foldlM_cons_of_step {m : μ} (h : step s m = some s') :
    (m :: moves).foldlM step s = moves.foldlM step s' := by
  rw [List.foldlM_cons, h]
  rfl

theorem foldlM_append_of_run (h : moves.foldlM step s = some s') :
    (moves ++ moves').foldlM step s = moves'.foldlM step s' := by
  rw [List.foldlM_append, h]
  rfl

theorem foldlM_snoc_of_run {m : μ} (h : moves.foldlM step s = some s')
    (hstep : step s' m = some s'') : (moves ++ [m]).foldlM step s = some s'' :=
  (foldlM_append_of_run h).trans (foldlM_cons_of_step hstep)

/-- What each step preserves that can be taken, a run of such steps preserves. -/
theorem foldlM_induction {P : σ → Prop} (hstep : ∀ {s m s'}, P s → step s m = some s' → P s')
    (hs : P s) (h : moves.foldlM step s = some s') : P s' := by
  induction moves generalizing s with
  | nil =>
    cases h
    exact hs
  | cons m moves ih =>
    rw [List.foldlM_cons] at h
    obtain ⟨s₁, hs₁, h⟩ := Option.bind_eq_some_iff.1 h
    exact ih (hstep hs hs₁) h

/-- What each step preserves of a state and of the steps taken so far, a run preserves. -/
theorem foldlM_history {P : List μ → σ → Prop} (hstart : P [] s)
    (hstep : ∀ {before s m s'}, P before s → step s m = some s' → P (before ++ [m]) s')
    (h : moves.foldlM step s = some s') : P moves s' := by
  -- on the steps, last step first: it is the history that grows
  induction moves using List.reverseRecOn generalizing s' with
  | nil =>
    cases h
    exact hstart
  | append_singleton before m ih =>
    rw [List.foldlM_append] at h
    obtain ⟨s₁, hs₁, h⟩ := Option.bind_eq_some_iff.1 h
    obtain ⟨s₂, hs₂, h⟩ := Option.bind_eq_some_iff.1 h
    cases h
    exact hstep (ih hs₁) hs₂

end Correlator
