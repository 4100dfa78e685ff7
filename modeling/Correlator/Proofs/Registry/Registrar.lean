import Mathlib.Logic.Function.Basic
import Correlator.Proofs.Registry.History
import Correlator.Proofs.Runs
import Correlator.Proofs.Tables

/-!
# A registry and its callers

Any number of callers register listeners, look keys up, remove listeners and make inquiries at one
registry, and their steps come in any order. Beside the registry stands the history of what was
done.

* `Registrar`: a registry with its history; `Registrar.fresh`: before anything was done.
* `Registrar.Move`, `Registrar.step?`, `Registrar.run?`: what callers do in one step. A listener is
  first taken out of the table, and disconnected in a later step; an inquiry looks up the refined
  key, and the other one in a later step.
* `Registrar.run?_resolve`, `Registrar.run?_unregister`: an inquiry and a removal that are not
  interrupted.
* `Registrar.Kept`: the history is legal, and says what is in the table.
* `Registrar.Orderly`: what callers may rely on.
* **`Registrar.orderly_of_run`**: they may do so after any steps in any order.

A listener is known by the number of its registration. So it can be told apart from the next one
under its key, and from another one with the same handler.
-/

namespace Correlator

open History

/-- How far an inquiry has come. -/
inductive Inquiry
  | unasked
  | asked (owner : String) (refinement? : Option String)
  /-- Nobody was found under the refined key. -/
  | missed (owner : String)
  | answered (l? : Option (Listener Nat))
  deriving DecidableEq

/-- How far an inquiry has come is in accord with the history. -/
def Inquiry.Noted (i : Nat) (h : History) : Inquiry → Prop
  | .unasked => (∀ owner refinement?, .asked i owner refinement? ∉ h) ∧ .missed i ∉ h
  | .asked owner refinement? => .asked i owner refinement? ∈ h
  | .missed owner => (∃ refinement?, .asked i owner refinement? ∈ h) ∧ .missed i ∈ h
  | .answered _ => True

/-- Whether a happening is no concern of an inquiry that is still to be answered. -/
def Happening.passes (i : Nat) : Happening → Bool
  | .asked j _ _ => j ≠ i
  | .missed j => j ≠ i
  | _ => true

/-- Whether a happening leaves the table as it is, and disconnects nobody. -/
def Happening.isQuiet : Happening → Bool
  | .registered _ | .removed _ | .disconnected _ => false
  | _ => true

theorem Inquiry.Noted.cons {q : Inquiry} {i : Nat} {h : History} {e : Happening}
    (hq : q.Noted i h) (he : e.passes i = true) : q.Noted i (e :: h) := by
  cases q with
  | unasked =>
    obtain ⟨hasked, hmissed⟩ := hq
    refine ⟨fun owner refinement? hin => ?_, fun hin => ?_⟩
    · rcases List.mem_cons.1 hin with rfl | hin
      · simp [Happening.passes] at he
      · exact hasked owner refinement? hin
    · rcases List.mem_cons.1 hin with rfl | hin
      · simp [Happening.passes] at he
      · exact hmissed hin
  | asked owner refinement? => exact List.mem_cons_of_mem e hq
  | missed owner =>
    obtain ⟨⟨refinement?, hasked⟩, hmissed⟩ := hq
    exact ⟨⟨refinement?, List.mem_cons_of_mem e hasked⟩, List.mem_cons_of_mem e hmissed⟩
  | answered l? => trivial

/-- A registry with its history, and with what its callers have still to do. -/
structure Registrar where
  registry : Registry Nat
  /-- The number of the next registration. -/
  next : Nat
  /-- The listeners that were taken out of the table and are to be disconnected. -/
  leaving : List (Listener Nat)
  inquiry : Nat → Inquiry
  history : History

namespace Registrar

/-- Nothing was done yet. -/
def fresh : Registrar := ⟨.empty, 0, [], fun _ => .unasked, []⟩

/-! ## Steps -/

/-- What callers do in one step. -/
inductive Move
  | register (key : Key) (owner : String) (download : Bool)
  | lookup (key : Key)
  /-- The first step of a removal. -/
  | remove (key : Key) (pipeline : String)
  /-- The second step of a removal. -/
  | disconnect (l : Listener Nat)
  | ask (i : Nat) (owner : String) (refinement? : Option String)
  /-- An inquiry looks its next key up. -/
  | look (i : Nat)

/-- The registrar with one thing more in its history. -/
def note (r : Registrar) (e : Happening) : Registrar := { r with history := e :: r.history }

/-- The registrar with an inquiry moved on. -/
def setInquiry (r : Registrar) (i : Nat) (q : Inquiry) : Registrar :=
  { r with inquiry := Function.update r.inquiry i q }

/-- An inquiry answered. -/
def answer (r : Registrar) (i : Nat) (l? : Option (Listener Nat)) : Registrar :=
  (r.setInquiry i (.answered l?)).note (.answered i l?)

/-- One step, if it can be taken. -/
def step? (r : Registrar) : Move → Option Registrar
  | .register key owner download =>
    let l : Listener Nat := ⟨key, owner, download, r.next⟩
    match r.registry.register l with
    | .ok registry => some ({ r with registry, next := r.next + 1 }.note (.registered l))
    | .error fault => some (r.note (.refused key owner fault))
  | .lookup key => some (r.note (.found key (r.registry.lookup? key)))
  | .remove key pipeline =>
    match r.registry.unregister? key pipeline with
    | some (l, registry) =>
      some ({ r with registry, leaving := l :: r.leaving }.note (.removed l))
    | none => some (r.note (.kept key pipeline))
  | .disconnect l =>
    if l ∈ r.leaving then
      some ({ r with leaving := r.leaving.erase l }.note (.disconnected l))
    else none
  | .ask i owner refinement? =>
    match r.inquiry i with
    | .unasked =>
      some ((r.setInquiry i (.asked owner refinement?)).note (.asked i owner refinement?))
    | _ => none
  | .look i =>
    match r.inquiry i with
    | .asked owner (some refinement) =>
      match r.registry.lookup? (.refined owner refinement) with
      | some l => some (r.answer i (some l))
      | none => some ((r.setInquiry i (.missed owner)).note (.missed i))
    | .asked owner none => some (r.answer i (r.registry.lookup? (.plain owner)))
    | .missed owner => some (r.answer i (r.registry.lookup? (.plain owner)))
    | _ => none

/-- A run of steps, if each of them can be taken. -/
def run? (r : Registrar) (moves : List Move) : Option Registrar := moves.foldlM step? r

variable {r r' : Registrar} {m : Move} {moves : List Move}

/-! ## What is not interrupted -/

/-- An inquiry that is not interrupted is answered as the registry resolves it. -/
theorem run?_resolve {i : Nat} (hi : r.inquiry i = .unasked) (owner : String)
    (refinement? : Option String) :
    ∃ moves, (r.run? moves).map (fun r' => (r'.registry, r'.inquiry i)) =
      some (r.registry, .answered (r.registry.resolve? owner refinement?)) := by
  cases refinement? with
  | none =>
    refine ⟨[.ask i owner none, .look i], ?_⟩
    simp [run?, step?, hi, answer, note, setInquiry, Registry.resolve?]
  | some refinement =>
    cases hl : r.registry.lookup? (.refined owner refinement) with
    | some l =>
      refine ⟨[.ask i owner (some refinement), .look i], ?_⟩
      simp [run?, step?, hi, answer, note, setInquiry, Registry.resolve?, hl]
    | none =>
      refine ⟨[.ask i owner (some refinement), .look i, .look i], ?_⟩
      simp [run?, step?, hi, answer, note, setInquiry, Registry.resolve?, hl]

/-- A removal that is not interrupted disconnects the listener that it takes out. -/
theorem run?_unregister {key : Key} {pipeline : String} {l : Listener Nat}
    {registry : Registry Nat} (h : r.registry.unregister? key pipeline = some (l, registry)) :
    r.run? [.remove key pipeline, .disconnect l] =
      some { r with
        registry, history := .disconnected l :: .removed l :: r.history } := by
  simp [run?, step?, h, note]

/-! ## The history and the table -/

/-- The history is legal; the table, the listeners that are to be disconnected and the inquiries
are what it says. -/
structure Kept (r : Registrar) : Prop where
  legal : Legal r.history
  holder : ∀ k, r.registry.lookup? k = holder? k r.history
  numbers : ∀ l, .registered l ∈ r.history → l.handler < r.next
  leaving : ∀ l, r.history.count (.disconnected l) + r.leaving.count l =
    r.history.count (.removed l)
  inquiry : ∀ i, (r.inquiry i).Noted i r.history

theorem kept_fresh : fresh.Kept where
  legal := .nil
  holder _ := rfl
  numbers _ hin := by cases hin
  leaving _ := rfl
  inquiry _ := by
    constructor
    · intro owner refinement? hin
      cases hin
    · intro hin
      cases hin

/-- To note what neither changes the table nor disconnects anybody keeps the accord, if it does so
for the inquiries. -/
theorem Kept.quiet {e : Happening} {inquiry : Nat → Inquiry} (h : r.Kept)
    (hlegal : Legal (e :: r.history)) (he : e.isQuiet = true)
    (hinquiry : ∀ i, (inquiry i).Noted i (e :: r.history)) :
    Kept { r with inquiry, history := e :: r.history } where
  legal := hlegal
  holder k := by
    rw [h.holder k]
    cases e <;> first | rfl | cases he
  numbers l hin := by
    rcases List.mem_cons.1 hin with rfl | hin
    · cases he
    · exact h.numbers l hin
  leaving l := by
    have hdisconnected : e ≠ .disconnected l := by
      rintro rfl
      cases he
    have hremoved : e ≠ .removed l := by
      rintro rfl
      cases he
    rw [List.count_cons_of_ne hdisconnected, List.count_cons_of_ne hremoved]
    exact h.leaving l
  inquiry := hinquiry

theorem Kept.inquiry_cons {e : Happening} (h : r.Kept) (he : ∀ i, e.passes i = true) (i : Nat) :
    (r.inquiry i).Noted i (e :: r.history) :=
  (h.inquiry i).cons (he i)

/-- One inquiry moves on, and what is noted is no concern of the others. -/
theorem Kept.inquiry_update {e : Happening} {i : Nat} {q : Inquiry} (h : r.Kept)
    (he : ∀ j, j ≠ i → e.passes j = true) (hq : q.Noted i (e :: r.history)) (j : Nat) :
    (Function.update r.inquiry i q j).Noted j (e :: r.history) := by
  by_cases hj : j = i
  · subst hj
    rw [Function.update_self]
    exact hq
  · rw [Function.update_of_ne hj]
    exact (h.inquiry j).cons (he j hj)

theorem Kept.answer {i : Nat} {l? : Option (Listener Nat)} (h : r.Kept)
    (hlegal : Legal (.answered i l? :: r.history)) : (r.answer i l?).Kept :=
  h.quiet hlegal rfl (h.inquiry_update (fun _ _ => rfl) trivial)

/-- What is found under the key without refinement is the answer to an inquiry that has no
refinement, or that missed. -/
theorem Kept.answer_plain {i : Nat} {owner : String} {refinement? : Option String} (h : r.Kept)
    (hasked : .asked i owner refinement? ∈ r.history)
    (hmissed : refinement? = none ∨ .missed i ∈ r.history) :
    (r.answer i (r.registry.lookup? (.plain owner))).Kept := by
  have hlegal := Legal.answered i owner refinement? h.legal hasked hmissed
  rw [← h.holder] at hlegal
  exact h.answer hlegal

theorem Kept.register {l : Listener Nat} {registry : Registry Nat} (h : r.Kept)
    (hr : r.registry.register l = .ok registry) (hl : l.handler = r.next) :
    ({ r with registry, next := r.next + 1 }.note (.registered l)).Kept where
  legal := by
    have hfree := (Registry.register_eq_ok.1 hr).1
    rw [h.holder] at hfree
    refine .registered l h.legal hfree fun l' hin => ?_
    rw [hl]
    exact Nat.ne_of_lt (h.numbers l' hin)
  holder k := by
    refine (Registry.lookup?_register hr k).trans ?_
    rw [h.holder k]
    rfl
  numbers l' hin := by
    rcases List.mem_cons.1 hin with he | hin
    · cases he
      exact Nat.lt_succ_of_le (Nat.le_of_eq hl)
    · exact Nat.lt_succ_of_lt (h.numbers l' hin)
  leaving l' := by
    have hl' := h.leaving l'
    simpa [Registrar.note] using hl'
  inquiry := h.inquiry_cons fun _ => rfl

theorem Kept.remove {key : Key} {pipeline : String} {l : Listener Nat} {registry : Registry Nat}
    (h : r.Kept) (hu : r.registry.unregister? key pipeline = some (l, registry)) :
    ({ r with registry, leaving := l :: r.leaving }.note (.removed l)).Kept := by
  obtain ⟨hfound, -, -⟩ := Registry.unregister?_eq_some.1 hu
  have hkey : l.key = key := Registry.key_of_lookup? hfound
  subst hkey
  exact {
    legal := .removed l h.legal ((h.holder l.key).symm.trans hfound)
    holder := fun k => by
      refine (Registry.lookup?_unregister? hu k).trans ?_
      rw [h.holder k]
      simp [Registrar.note, holder?, eq_comm]
    numbers := fun l' hin => h.numbers l' (by simpa [Registrar.note] using hin)
    leaving := fun l' => by
      have hl' := h.leaving l'
      simp only [Registrar.note, List.count_cons, beq_iff_eq, Happening.removed.injEq,
        reduceCtorEq, if_false]
      omega
    inquiry := h.inquiry_cons fun _ => rfl }

theorem Kept.disconnect {l : Listener Nat} (h : r.Kept) (hl : l ∈ r.leaving) :
    ({ r with leaving := r.leaving.erase l }.note (.disconnected l)).Kept where
  legal := .disconnected l h.legal
  holder := h.holder
  numbers l' hin := h.numbers l' (by simpa [Registrar.note] using hin)
  leaving l' := by
    have hl' := h.leaving l'
    have hpos : 0 < r.leaving.count l := List.count_pos_iff.2 hl
    by_cases he : l = l'
    · subst he
      have hne : Happening.disconnected l ≠ .removed l := by simp
      simp only [Registrar.note, List.count_cons_self, List.count_erase_self,
        List.count_cons_of_ne hne]
      omega
    · simpa [Registrar.note, he, List.count_erase_of_ne (Ne.symm he)] using hl'
  inquiry := h.inquiry_cons fun _ => rfl

/-- **The accord is kept** by whatever callers do. -/
theorem kept_step (h : r.Kept) (hs : r.step? m = some r') : r'.Kept := by
  cases m with
  | register key owner download =>
    simp only [step?] at hs
    split at hs
    · rename_i registry hr
      cases hs
      exact h.register hr rfl
    · rename_i fault hr
      cases hs
      have htaken := (Registry.register_eq_error.1 hr).1
      rw [h.holder] at htaken
      exact h.quiet (.refused key owner fault h.legal htaken) rfl (h.inquiry_cons fun _ => rfl)
  | lookup key =>
    simp only [step?, Option.some.injEq] at hs
    subst hs
    refine h.quiet ?_ rfl (h.inquiry_cons fun _ => rfl)
    rw [h.holder key]
    exact .found key h.legal
  | remove key pipeline =>
    simp only [step?] at hs
    split at hs
    · rename_i l registry hu
      cases hs
      exact h.remove hu
    · rename_i hu
      cases hs
      have howner := Registry.unregister?_eq_none.1 hu
      rw [h.holder key] at howner
      exact h.quiet (.kept key pipeline h.legal howner) rfl (h.inquiry_cons fun _ => rfl)
  | disconnect l =>
    simp only [step?] at hs
    split at hs
    · rename_i hl
      cases hs
      exact h.disconnect hl
    · cases hs
  | ask i owner refinement? =>
    simp only [step?] at hs
    split at hs
    · rename_i hi
      cases hs
      have hnoted := h.inquiry i
      rw [hi] at hnoted
      obtain ⟨hasked, hmissed⟩ := hnoted
      refine h.quiet (.asked i owner refinement? h.legal hasked hmissed) rfl ?_
      refine h.inquiry_update (fun j hj => ?_) (List.mem_cons_self ..)
      simpa [Happening.passes] using Ne.symm hj
    · cases hs
  | look i =>
    have hnoted := h.inquiry i
    simp only [step?] at hs
    split at hs
    · rename_i owner refinement hi
      rw [hi] at hnoted
      split at hs
      · rename_i l hl
        cases hs
        rw [h.holder] at hl
        exact h.answer (.hit i owner refinement l h.legal hnoted hl)
      · rename_i hl
        cases hs
        rw [h.holder] at hl
        refine h.quiet (.missed i owner refinement h.legal hnoted hl) rfl ?_
        refine h.inquiry_update (fun j hj => ?_) ?_
        · simpa [Happening.passes] using Ne.symm hj
        · exact ⟨⟨_, List.mem_cons_of_mem _ hnoted⟩, List.mem_cons_self ..⟩
    · rename_i owner hi
      cases hs
      rw [hi] at hnoted
      exact h.answer_plain hnoted (.inl rfl)
    · rename_i owner hi
      cases hs
      rw [hi] at hnoted
      obtain ⟨⟨refinement?, hasked⟩, hmissed⟩ := hnoted
      exact h.answer_plain hasked (.inr hmissed)
    · cases hs

theorem kept_run (h : r.Kept) (hrun : r.run? moves = some r') : r'.Kept :=
  foldlM_induction kept_step h hrun

/-! ## What callers may rely on -/

/-- What callers may rely on. The history has its last thing first, so it begins at its end. -/
structure Orderly (r : Registrar) : Prop where
  /-- At each key registrations and removals take turns, a registration first. Each removal is that
  of the listener registered last, and whoever was not removed is in the table. -/
  turns : ∀ k, ∃ stays : List (Listener Nat), r.history.filter (Happening.turns k) =
    (r.registry.lookup? k).toList.map .registered ++
      stays.flatMap fun l => [.removed l, .registered l]
  /-- A registration under a key that is taken is refused, and changes nothing. -/
  refused : ∀ key owner download, r.registry.lookup? key ≠ none →
    r.step? (.register key owner download) = some (r.note (.refused key owner (.duplicate key)))
  /-- A removal on behalf of anybody but the owner changes nothing. -/
  kept : ∀ key pipeline, (∀ l, r.registry.lookup? key = some l → l.owner ≠ pipeline) →
    r.step? (.remove key pipeline) = some (r.note (.kept key pipeline))
  /-- Whoever looks a key up between a registration and the removal finds just that listener. -/
  found : ∀ later l? between l before,
    r.history = later ++ .found l.key l? :: (between ++ .registered l :: before) →
      .removed l ∉ between → l? = some l
  /-- A listener that was removed was disconnected once, or is still to be; no other one was. -/
  disconnected : ∀ l,
    r.history.count (.disconnected l) + r.leaving.count l = r.history.count (.removed l) ∧
      r.history.count (.removed l) ≤ r.history.count (.registered l) ∧
      r.history.count (.registered l) ≤ 1
  /-- Registrations are told apart by their numbers. -/
  numbered : ∀ l l', .registered l ∈ r.history → .registered l' ∈ r.history →
    l.handler = l'.handler → l = l'
  /-- The listener that an inquiry is answered with is registered at the end of the inquiry, under
  one of the keys that were asked for. -/
  present : ∀ later i l between owner refinement? before,
    r.history = later ++ .answered i (some l) ::
        (between ++ .asked i owner refinement? :: before) →
      Stays (between ++ .asked i owner refinement? :: before) l ∧
        (l.key = .plain owner ∨
          ∃ refinement, refinement? = some refinement ∧ l.key = .refined owner refinement)
  /-- It is the one under the refined key, if that stays from the beginning of the inquiry to its
  end. -/
  refined : ∀ later i l? between owner refinement before l,
    r.history = later ++ .answered i l? ::
        (between ++ .asked i owner (some refinement) :: before) →
      l.key = .refined owner refinement → Stays before l → .removed l ∉ between → l? = some l
  /-- There is some answer, if the listener under the other key stays as long. -/
  any : ∀ later i l? between owner refinement? before l,
    r.history = later ++ .answered i l? :: (between ++ .asked i owner refinement? :: before) →
      l.key = .plain owner → Stays before l → .removed l ∉ between → l? ≠ none

/-- **Callers may rely on what they are told**, in whatever order their steps come. -/
theorem orderly_of_run (h : fresh.run? moves = some r) : r.Orderly := by
  have hkept : r.Kept := kept_run kept_fresh h
  have hlegal : ∀ {later earlier}, r.history = later ++ earlier → Legal earlier := fun he =>
    Legal.of_append (he ▸ hkept.legal)
  exact {
    turns := fun k => by
      rw [hkept.holder k]
      exact hkept.legal.filter_turns k
    refused := fun key owner download htaken => by
      have hrefused := Registry.register_eq_error (l := ⟨key, owner, download, r.next⟩).2
        ⟨htaken, rfl⟩
      simp only [step?, hrefused]
    kept := fun key pipeline howner => by
      simp only [step?, Registry.unregister?_eq_none.2 howner]
    found := fun later l? between l before he hb => (hlegal he).found_between hb
    disconnected := fun l =>
      ⟨hkept.leaving l, hkept.legal.count_removed_le l, hkept.legal.count_registered_le l⟩
    numbered := fun l l' => hkept.legal.eq_of_handler
    present := fun later i l between owner refinement? before he =>
      (hlegal he).answered_present (by simp)
    refined := fun later i l? between owner refinement before l he =>
      (hlegal he).answered_refined
    any := fun later i l? between owner refinement? before l he => (hlegal he).answered_any }

/-- Two listeners of a shop for the responses without refinement. -/
def eastern : Listener Nat := ⟨.plain "shop", "east", false, 0⟩

/-- The second one comes later. -/
def western : Listener Nat := ⟨.plain "shop", "west", false, 1⟩

/-- The second one comes after the first was taken out, and before that is disconnected; an
inquiry is under way all the time. -/
def crossing : List Move :=
  [.register (.plain "shop") "east" false, .ask 0 "shop" (some "200"),
    .remove (.plain "shop") "west", .register (.plain "shop") "west" false, .look 0,
    .remove (.plain "shop") "east", .register (.plain "shop") "west" false, .disconnect eastern,
    .look 0]

/-- The first one was disconnected, the second one was not, and it is the answer. -/
theorem orderly_of_run_crossing :
    ∃ r, fresh.run? crossing = some r ∧ r.Orderly ∧
      r.history.count (.disconnected eastern) = 1 ∧
      r.history.count (.disconnected western) = 0 ∧
      r.history.head? = some (.answered 0 (some western)) := by
  have hend : (fresh.run? crossing).map (fun r => (r.history.count (.disconnected eastern),
      r.history.count (.disconnected western), r.history.head?)) =
        some (1, 0, some (.answered 0 (some western))) := by decide +kernel
  obtain ⟨r, hr, heq⟩ := Option.map_eq_some_iff.1 hend
  simp only [Prod.mk.injEq] at heq
  exact ⟨r, hr, orderly_of_run hr, heq⟩

end Registrar

end Correlator
