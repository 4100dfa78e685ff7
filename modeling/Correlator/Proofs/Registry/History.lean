import Mathlib.Data.List.Nodup
import Correlator.Registry

/-!
# Histories of a registry

What was done at a registry, one thing after another, and what can be said of a listener's stay
from nothing but that.

* `Happening`, `History`: what was done, and what came of it; the last thing stands first.
* `History.holder?`: the listener that is registered under a key at the end of a history.
* `Legal`: each thing that was done came out as the things before it demand.
* `Legal.holder?_eq_some_iff`: a listener is registered from its registration to its removal.
* `Legal.filter_turns`: at each key, registrations and removals take turns.
* `Legal.found_between`: in between, the listener is what everybody finds.
* `Legal.answered_present`, `Legal.answered_refined`, `Legal.answered_any`: what an inquiry is
  answered with, which looks at two keys at two times.

Listeners are told apart by their numbers, and not by their keys: a key may have a new listener
when things are still done to the one that had it before.
-/

namespace Correlator

deriving instance DecidableEq for Listener

/-- Something that was done at a registry, and what came of it. -/
inductive Happening
  | registered (l : Listener Nat)
  | refused (key : Key) (owner : String) (fault : Fault)
  | found (key : Key) (l? : Option (Listener Nat))
  | removed (l : Listener Nat)
  /-- A removal that was asked for in vain. -/
  | kept (key : Key) (pipeline : String)
  | disconnected (l : Listener Nat)
  /-- An inquiry began: who takes the responses of an owner? -/
  | asked (inquiry : Nat) (owner : String) (refinement? : Option String)
  /-- It found nobody under the refined key. -/
  | missed (inquiry : Nat)
  | answered (inquiry : Nat) (l? : Option (Listener Nat))
  deriving DecidableEq

/-- What was done at a registry, last thing first. -/
abbrev History := List Happening

/-- Whether a key got a listener or lost it. -/
def Happening.turns (k : Key) : Happening → Bool
  | .registered l => l.key = k
  | .removed l => l.key = k
  | _ => false

namespace History

/-- The listener that is registered under a key in the end. -/
def holder? (k : Key) : History → Option (Listener Nat)
  | [] => none
  | .registered l :: earlier => if l.key = k then some l else holder? k earlier
  | .removed l :: earlier => if l.key = k then none else holder? k earlier
  | _ :: earlier => holder? k earlier

/-- The listener was registered, and has not been removed since. -/
def Stays (h : History) (l : Listener Nat) : Prop := .registered l ∈ h ∧ .removed l ∉ h

/-- A listener stays as long as it is not removed. -/
theorem Stays.through {h between : History} {l : Listener Nat} (hs : h.Stays l)
    (hb : .removed l ∉ between) : Stays (between ++ h) l := by
  obtain ⟨hin, hout⟩ := hs
  exact ⟨List.mem_append_right _ hin, by simp [hb, hout]⟩

end History

open History

/-- Each thing that was done came out as the things before it demand. -/
inductive Legal : History → Prop
  | nil : Legal []
  | registered {h} (l : Listener Nat) : Legal h → holder? l.key h = none →
      (∀ l', .registered l' ∈ h → l'.handler ≠ l.handler) → Legal (.registered l :: h)
  | refused {h} (key : Key) (owner : String) (fault : Fault) : Legal h → holder? key h ≠ none →
      Legal (.refused key owner fault :: h)
  | found {h} (key : Key) : Legal h → Legal (.found key (holder? key h) :: h)
  | removed {h} (l : Listener Nat) : Legal h → holder? l.key h = some l → Legal (.removed l :: h)
  | kept {h} (key : Key) (pipeline : String) : Legal h →
      (∀ l, holder? key h = some l → l.owner ≠ pipeline) → Legal (.kept key pipeline :: h)
  | disconnected {h} (l : Listener Nat) : Legal h → Legal (.disconnected l :: h)
  | asked {h} (i : Nat) (owner : String) (refinement? : Option String) : Legal h →
      (∀ o r?, .asked i o r? ∉ h) → .missed i ∉ h → Legal (.asked i owner refinement? :: h)
  | missed {h} (i : Nat) (owner refinement : String) : Legal h →
      .asked i owner (some refinement) ∈ h → holder? (.refined owner refinement) h = none →
      Legal (.missed i :: h)
  | hit {h} (i : Nat) (owner refinement : String) (l : Listener Nat) : Legal h →
      .asked i owner (some refinement) ∈ h → holder? (.refined owner refinement) h = some l →
      Legal (.answered i (some l) :: h)
  | answered {h} (i : Nat) (owner : String) (refinement? : Option String) : Legal h →
      .asked i owner refinement? ∈ h → (refinement? = none ∨ .missed i ∈ h) →
      Legal (.answered i (holder? (.plain owner) h) :: h)

namespace Legal

variable {h : History} {l l' : Listener Nat} {k : Key} {e : Happening}

theorem tail (hl : Legal (e :: h)) : Legal h := by
  cases hl <;> assumption

theorem of_append {later : History} (hl : Legal (later ++ h)) : Legal h := by
  induction later with
  | nil => exact hl
  | cons e later ih => exact ih hl.tail

/-! ## Stays -/

theorem registered_of_holder? (hh : holder? k h = some l) : .registered l ∈ h ∧ l.key = k := by
  induction h with
  | nil => cases hh
  | cons e h ih =>
    have hlater : holder? k h = some l → .registered l ∈ e :: h ∧ l.key = k := fun hh =>
      ⟨List.mem_cons_of_mem e (ih hh).1, (ih hh).2⟩
    cases e with
    | registered l₀ =>
      simp only [holder?] at hh
      split at hh
      · rename_i hk
        cases hh
        exact ⟨List.mem_cons_self .., hk⟩
      · exact hlater hh
    | removed l₀ =>
      simp only [holder?] at hh
      split at hh
      · cases hh
      · exact hlater hh
    | _ => exact hlater hh

/-- Whoever was removed had been registered. -/
theorem registered_of_removed (hl : Legal h) (hr : .removed l ∈ h) : .registered l ∈ h := by
  induction hl with
  | nil => cases hr
  | removed l₀ _ hheld ih =>
    rcases List.mem_cons.1 hr with he | hr
    · cases he
      exact List.mem_cons_of_mem _ (registered_of_holder? hheld).1
    · exact List.mem_cons_of_mem _ (ih hr)
  | _ =>
    rename_i ih
    exact List.mem_cons_of_mem _ (ih (by simpa using hr))

/-- A listener that is just registered was never removed. -/
theorem not_removed (hl : Legal (.registered l :: h)) : .removed l ∉ h := by
  intro hr
  cases hl with
  | registered _ hl _ hfresh => exact hfresh l (hl.registered_of_removed hr) rfl

/-- **A listener is registered from its registration to its removal**, and under its own key. -/
theorem holder?_eq_some_iff (hl : Legal h) : holder? k h = some l ↔ h.Stays l ∧ l.key = k := by
  -- on the history; only registrations and removals change either side
  induction hl with
  | nil => simp [holder?, Stays]
  | @registered h l₀ hl hfree hfresh ih =>
    have hnew : .removed l₀ ∉ h := (Legal.registered l₀ hl hfree hfresh).not_removed
    simp only [holder?]
    split
    · rename_i hk
      constructor
      · intro he
        cases he
        exact ⟨⟨List.mem_cons_self .., by simpa using hnew⟩, hk⟩
      · rintro ⟨⟨hin, hout⟩, hkey⟩
        rcases List.mem_cons.1 hin with he | hin
        · cases he
          rfl
        · have hheld : holder? k h = some l := ih.2 ⟨⟨hin, by simpa using hout⟩, hkey⟩
          rw [← hk, hfree] at hheld
          cases hheld
    · rename_i hk
      have hne : l.key = k → l ≠ l₀ := fun hkey he => hk (he ▸ hkey)
      rw [ih]
      simp only [Stays, List.mem_cons, Happening.registered.injEq, reduceCtorEq, false_or]
      constructor
      · rintro ⟨⟨hin, hout⟩, hkey⟩
        exact ⟨⟨.inr hin, hout⟩, hkey⟩
      · rintro ⟨⟨hin, hout⟩, hkey⟩
        exact ⟨⟨hin.resolve_left (hne hkey), hout⟩, hkey⟩
  | @removed h l₀ hl hheld ih =>
    simp only [holder?, Stays, List.mem_cons, Happening.removed.injEq, reduceCtorEq, false_or]
    split
    · rename_i hk
      constructor
      · intro he
        cases he
      · rintro ⟨⟨hin, hout⟩, hkey⟩
        have hsome : holder? k h = some l := ih.2 ⟨⟨hin, fun hr => hout (.inr hr)⟩, hkey⟩
        rw [← hk, hheld] at hsome
        cases hsome
        exact absurd (.inl rfl) hout
    · rename_i hk
      have hne : l.key = k → l ≠ l₀ := fun hkey he => hk (he ▸ hkey)
      rw [ih]
      constructor
      · rintro ⟨⟨hin, hout⟩, hkey⟩
        exact ⟨⟨hin, fun hor => hor.elim (hne hkey) hout⟩, hkey⟩
      · rintro ⟨⟨hin, hout⟩, hkey⟩
        exact ⟨⟨hin, fun hr => hout (.inr hr)⟩, hkey⟩
  | _ =>
    rename_i ih
    simpa [holder?, Stays] using ih

theorem stays_registered (hl : Legal (.registered l :: h)) : Stays (.registered l :: h) l := by
  have hout : .removed l ∉ h := hl.not_removed
  exact ⟨List.mem_cons_self .., by simpa using hout⟩

/-- Whoever looks a key up finds the listener that was registered under it and was not removed
since. -/
theorem found_between {between before : History} {l? : Option (Listener Nat)}
    (hl : Legal (.found l.key l? :: (between ++ .registered l :: before)))
    (hb : .removed l ∉ between) : l? = some l := by
  have hlegal : Legal (between ++ .registered l :: before) := hl.tail
  have hfound : holder? l.key (between ++ .registered l :: before) = some l :=
    hlegal.holder?_eq_some_iff.2 ⟨hlegal.of_append.stays_registered.through hb, rfl⟩
  cases hl with
  | found _ _ => exact hfound

/-! ## Turns -/

/-- **Registrations and removals of a key take turns**, beginning with a registration. Each removal
is that of the listener registered last, and the last one that was not removed is there. -/
theorem filter_turns (hl : Legal h) (k : Key) :
    ∃ stays : List (Listener Nat), h.filter (Happening.turns k) =
      (holder? k h).toList.map .registered ++
        stays.flatMap fun l => [.removed l, .registered l] := by
  induction hl with
  | nil => exact ⟨[], rfl⟩
  | @registered h l₀ hl hfree hfresh ih =>
    obtain ⟨stays, hstays⟩ := ih
    by_cases hk : l₀.key = k
    · subst hk
      refine ⟨stays, ?_⟩
      rw [hfree] at hstays
      simp [holder?, Happening.turns, hstays]
    · refine ⟨stays, ?_⟩
      simp [holder?, Happening.turns, hk, hstays]
  | @removed h l₀ hl hheld ih =>
    obtain ⟨stays, hstays⟩ := ih
    by_cases hk : l₀.key = k
    · subst hk
      refine ⟨l₀ :: stays, ?_⟩
      rw [hheld] at hstays
      simp [holder?, Happening.turns, hstays]
    · refine ⟨stays, ?_⟩
      simp [holder?, Happening.turns, hk, hstays]
  | _ =>
    rename_i ih
    obtain ⟨stays, hstays⟩ := ih
    exact ⟨stays, by simpa [holder?, Happening.turns] using hstays⟩

/-- No two listeners that were registered have one number. -/
theorem eq_of_handler (hl : Legal h) (hin : .registered l ∈ h) (hin' : .registered l' ∈ h)
    (hnum : l.handler = l'.handler) : l = l' := by
  induction hl with
  | nil => cases hin
  | @registered h l₀ _ _ hfresh ih =>
    rcases List.mem_cons.1 hin with he | hold <;> rcases List.mem_cons.1 hin' with he' | hold'
    · cases he
      cases he'
      rfl
    · cases he
      exact absurd hnum.symm (hfresh l' hold')
    · cases he'
      exact absurd hnum (hfresh l hold)
    · exact ih hold hold'
  | _ =>
    rename_i ih
    exact ih (by simpa using hin) (by simpa using hin')

/-- A listener is registered once. -/
theorem count_registered_le (hl : Legal h) (l : Listener Nat) :
    h.count (.registered l) ≤ 1 := by
  induction hl with
  | nil => simp
  | @registered h l₀ _ _ hfresh ih =>
    by_cases he : l₀ = l
    · subst he
      have hnone : .registered l₀ ∉ h := fun hin => hfresh l₀ hin rfl
      simp [List.count_eq_zero.2 hnone]
    · simpa [he] using ih
  | _ =>
    rename_i ih
    simpa using ih

/-- A listener is removed at most as often as it was registered. -/
theorem count_removed_le (hl : Legal h) (l : Listener Nat) :
    h.count (.removed l) ≤ h.count (.registered l) := by
  induction hl with
  | nil => simp
  | registered l₀ _ _ _ ih =>
    rw [List.count_cons_of_ne (by simp)]
    exact Nat.le_trans ih (List.count_le_count_cons ..)
  | @removed h l₀ hl hheld ih =>
    by_cases he : l₀ = l
    · subst he
      obtain ⟨⟨hin, hout⟩, -⟩ := hl.holder?_eq_some_iff.1 hheld
      have hone : 0 < h.count (.registered l₀) := List.count_pos_iff.2 hin
      simp only [List.count_cons_self, List.count_eq_zero.2 hout]
      rw [List.count_cons_of_ne (by simp)]
      exact hone
    · simpa [he] using ih
  | _ =>
    rename_i ih
    simpa using ih

/-! ## Inquiries -/

/-- An inquiry asks once. -/
theorem asked_inj (hl : Legal h) {i : Nat} {o o' : String} {r? r?' : Option String}
    (hin : .asked i o r? ∈ h) (hin' : .asked i o' r?' ∈ h) : o = o' ∧ r? = r?' := by
  induction hl with
  | nil => cases hin
  | asked i₀ o₀ r?₀ _ hfresh _ ih =>
    rcases List.mem_cons.1 hin with he | hold <;> rcases List.mem_cons.1 hin' with he' | hold'
    · cases he
      cases he'
      exact ⟨rfl, rfl⟩
    · cases he
      exact absurd hold' (hfresh _ _)
    · cases he'
      exact absurd hold (hfresh _ _)
    · exact ih hold hold'
  | _ =>
    rename_i ih
    exact ih (by simpa using hin) (by simpa using hin')

section Inquiry

variable {i : Nat} {owner : String} {refinement? : Option String} {refinement : String}
  {l? : Option (Listener Nat)} {between before : History}

/-- The answer to an inquiry is what is found under one of its keys at that moment; under the key
without refinement only if there is no refinement, or nobody was found under the refined key. -/
theorem answered_eq (hl : Legal (.answered i l? :: h)) (hask : .asked i owner refinement? ∈ h) :
    (∃ refinement, refinement? = some refinement ∧ l? ≠ none ∧
        holder? (.refined owner refinement) h = l?) ∨
      ((refinement? = none ∨ .missed i ∈ h) ∧ holder? (.plain owner) h = l?) := by
  have hlegal := hl.tail
  cases hl with
  | hit _ _ refinement _ _ hask' hheld =>
    obtain ⟨rfl, rfl⟩ := hlegal.asked_inj hask hask'
    exact .inl ⟨refinement, rfl, by simp, hheld⟩
  | answered _ _ _ _ hask' hmissed =>
    obtain ⟨rfl, rfl⟩ := hlegal.asked_inj hask hask'
    exact .inr ⟨hmissed, rfl⟩

/-- The listener that an inquiry is answered with is registered at that moment, under one of the
keys that were asked for. -/
theorem answered_present (hl : Legal (.answered i (some l) :: h))
    (hask : .asked i owner refinement? ∈ h) :
    h.Stays l ∧ (l.key = .plain owner ∨
      ∃ refinement, refinement? = some refinement ∧ l.key = .refined owner refinement) := by
  have hlegal := hl.tail
  rcases hl.answered_eq hask with ⟨refinement, hr, -, hheld⟩ | ⟨-, hheld⟩
  · obtain ⟨hstays, hkey⟩ := hlegal.holder?_eq_some_iff.1 hheld
    exact ⟨hstays, .inr ⟨refinement, hr, hkey⟩⟩
  · obtain ⟨hstays, hkey⟩ := hlegal.holder?_eq_some_iff.1 hheld
    exact ⟨hstays, .inl hkey⟩

/-- An inquiry that missed did so while it was under way, and nobody had the refined key then. -/
theorem missed_between
    (hl : Legal (between ++ .asked i owner (some refinement) :: before))
    (hm : .missed i ∈ between ++ .asked i owner (some refinement) :: before) :
    ∃ later earlier, between = later ++ .missed i :: earlier ∧
      holder? (.refined owner refinement)
        (earlier ++ .asked i owner (some refinement) :: before) = none := by
  have hbefore : .missed i ∉ before := by
    have hasked := hl.of_append
    cases hasked with
    | asked _ _ _ _ _ hnot => exact hnot
  have hbetween : .missed i ∈ between := by simpa [hbefore] using hm
  obtain ⟨later, earlier, rfl⟩ := List.append_of_mem hbetween
  rw [List.append_assoc, List.cons_append] at hl
  have hmissed := hl.of_append
  have hlegal := hmissed.tail
  refine ⟨later, earlier, rfl, ?_⟩
  cases hmissed with
  | missed _ owner' refinement' _ hask' hnone =>
    have hask : .asked i owner (some refinement) ∈
        earlier ++ .asked i owner (some refinement) :: before := by simp
    obtain ⟨rfl, hr⟩ := hlegal.asked_inj hask hask'
    cases hr
    exact hnone

/-- An inquiry is answered with the listener of the refined key, if that is registered from the
beginning of the inquiry to its end. -/
theorem answered_refined
    (hl : Legal (.answered i l? :: (between ++ .asked i owner (some refinement) :: before)))
    (hkey : l.key = .refined owner refinement) (hbefore : before.Stays l)
    (hb : .removed l ∉ between) : l? = some l := by
  have hask : .asked i owner (some refinement) ∈
      between ++ .asked i owner (some refinement) :: before := by simp
  have hasked : Stays (.asked i owner (some refinement) :: before) l := by
    simpa [Stays] using hbefore
  have hlegal := hl.tail
  rcases hl.answered_eq hask with ⟨refinement', hr, -, hheld⟩ | ⟨hnone | hmissed, -⟩
  · cases hr
    rw [← hheld]
    exact hlegal.holder?_eq_some_iff.2 ⟨hasked.through hb, hkey⟩
  · cases hnone
  · -- at the moment of the miss the listener was registered, too
    obtain ⟨later, earlier, rfl, hfree⟩ := hlegal.missed_between hmissed
    rw [List.append_assoc, List.cons_append] at hlegal
    have hlegal' := hlegal.of_append.tail
    have hb' : .removed l ∉ earlier := fun hr => hb (by simp [hr])
    have hheld : holder? (.refined owner refinement) _ = some l :=
      hlegal'.holder?_eq_some_iff.2 ⟨hasked.through hb', hkey⟩
    rw [hfree] at hheld
    cases hheld

/-- An inquiry is answered with somebody, if there is a listener under the key without refinement
from the beginning of the inquiry to its end. -/
theorem answered_any
    (hl : Legal (.answered i l? :: (between ++ .asked i owner refinement? :: before)))
    (hkey : l.key = .plain owner) (hbefore : before.Stays l) (hb : .removed l ∉ between) :
    l? ≠ none := by
  have hask : .asked i owner refinement? ∈ between ++ .asked i owner refinement? :: before := by
    simp
  have hasked : Stays (.asked i owner refinement? :: before) l := by
    simpa [Stays] using hbefore
  have hlegal := hl.tail
  rcases hl.answered_eq hask with ⟨-, -, hsome, -⟩ | ⟨-, hheld⟩
  · exact hsome
  · rw [← hheld, hlegal.holder?_eq_some_iff.2 ⟨hasked.through hb, hkey⟩]
    simp

end Inquiry

end Legal

end Correlator
