import Mathlib.Data.List.Basic
import Correlator.Proofs.Pool.Jobs
import Correlator.Proofs.Runs
import Correlator.Proofs.Tables

/-!
# The gauge of a pool

A slot is taken, and given back, in three steps: a permit, a counter, and a gauge that shows what
the counter came to. Slots take these steps in any order among each other. The counter and the
permits agree at any moment. The gauge may be written by one slot with a value that another slot
has made out of date.

* `Slots`, `Slots.step?`, `Slots.run?`: permits, counter and gauge, with the slots that were ever
  taken; `Slots.step_of_step?`: what each step does.
* `Slots.Balanced`: the permits that are taken, and the counter, are told from the slots.
* `Slots.Shown`: what the counter came to when a slot last changed it.
* `Slots.Carried`: slots that have not written it yet carry it, and so does the gauge.
* **`Slots.gauge_of_run`**: the counter is right, and the gauge shows what the counter came to for
  the slot that wrote last; so it is right if this slot was the last one to change the counter.
* `Slots.stale_of_run`: otherwise it may be wrong, and an idle pool is shown as busy.
* `Slots.Stands`: the slots of a pool; `Slots.Stands.submit`, `Slots.Stands.release`: a pool does
  what slots can do with nobody coming between the steps of a slot, and then the gauge is right.
-/

namespace Correlator

/-- An element of a list is replaced by another. -/
theorem countP_set_add {α : Type*} {l : List α} {i : Nat} {a b : α} (f : α → Bool)
    (h : l[i]? = some a) :
    (l.set i b).countP f + (f a).toNat = l.countP f + (f b).toNat := by
  obtain ⟨hi, rfl⟩ := List.getElem?_eq_some_iff.1 h
  have hpos : f l[i] = true → 0 < l.countP f := fun hf =>
    List.countP_pos_iff.2 ⟨_, List.getElem_mem hi, hf⟩
  rw [List.countP_set hi]
  cases ha : f l[i] with
  | true =>
    have hsome := hpos ha
    cases f b <;> simp <;> omega
  | false => cases f b <;> simp

/-! ## Slots -/

/-- How far a slot has come. -/
inductive SlotPhase
  /-- It has its permit and is to be counted. -/
  | taken
  /-- The counter came to this; the gauge is to be written. -/
  | counted (n : UInt64)
  | held
  /-- The same on the way back. -/
  | uncounted (n : UInt64)
  /-- Its permit is to be given back. -/
  | written
  | returned
  deriving DecidableEq, Repr

namespace SlotPhase

/-- Whether the slot has its permit. -/
def hasPermit : SlotPhase → Bool
  | .returned => false
  | _ => true

/-- Whether the slot is counted. -/
def isCounted : SlotPhase → Bool
  | .counted _ | .held => true
  | _ => false

/-- What is to be written to the gauge. -/
def value? : SlotPhase → Option UInt64
  | .counted n | .uncounted n => some n
  | _ => none

/-- Whether the slot is neither half taken nor half given back. -/
def isWhole : SlotPhase → Bool
  | .held | .returned => true
  | _ => false

theorem eq_held {phase : SlotPhase} (hwhole : phase.isWhole = true)
    (hpermit : phase.hasPermit = true) : phase = .held := by
  cases phase <;> simp_all [isWhole, hasPermit]

end SlotPhase

/-- The free permits of a pool, its counter and its gauge, and each slot that was ever taken. -/
structure Slots where
  free : Nat
  isOpen : Bool
  counter : UInt64
  meter : Meter
  slots : List SlotPhase
  deriving Repr

namespace Slots

/-- Nothing is taken. -/
def new (size : Nat) : Slots := ⟨max size 1, true, 0, .zero, []⟩

/-- The number of permits that are taken. -/
def taken (s : Slots) : Nat := s.slots.countP SlotPhase.hasPermit

/-- What the gauge shows. -/
def gauge (s : Slots) : Nat := s.meter.value .poolInUse

/-- No slot is half taken or half given back. -/
def Quiet (s : Slots) : Prop := ∀ phase ∈ s.slots, phase.isWhole = true

instance (s : Slots) : Decidable s.Quiet := inferInstanceAs (Decidable (∀ _ ∈ _, _))

/-- A permit is taken; a slot counts itself, writes the gauge, does not count itself any more, or
gives its permit back; or the pool is closed. -/
inductive Move
  | take
  | count (slot : Nat)
  | write (slot : Nat)
  | uncount (slot : Nat)
  | giveBack (slot : Nat)
  | close
  deriving DecidableEq, Repr

/-- One step, if it can be taken. -/
def step? (s : Slots) : Move → Option Slots
  | .take =>
    if s.isOpen ∧ 0 < s.free then
      some { s with free := s.free - 1, slots := s.slots ++ [.taken] }
    else none
  | .count i =>
    match s.slots[i]? with
    | some .taken =>
      some { s with
        counter := s.counter + 1, slots := s.slots.set i (.counted (s.counter + 1)) }
    | _ => none
  | .write i =>
    match s.slots[i]? with
    | some (.counted n) =>
      some { s with meter := s.meter.set .poolInUse n.toNat, slots := s.slots.set i .held }
    | some (.uncounted n) =>
      some { s with meter := s.meter.set .poolInUse n.toNat, slots := s.slots.set i .written }
    | _ => none
  | .uncount i =>
    match s.slots[i]? with
    | some .held =>
      some { s with
        counter := s.counter - 1, slots := s.slots.set i (.uncounted (s.counter - 1)) }
    | _ => none
  | .giveBack i =>
    match s.slots[i]? with
    | some .written => some { s with free := s.free + 1, slots := s.slots.set i .returned }
    | _ => none
  | .close => some { s with isOpen := false }

/-- A run of steps, if each of them can be taken. -/
def run? (s : Slots) (moves : List Move) : Option Slots := moves.foldlM step? s

/-- What each step does. -/
inductive Step (s : Slots) : Move → Slots → Prop
  | take : 0 < s.free → Step s .take { s with free := s.free - 1, slots := s.slots ++ [.taken] }
  | count {i} : s.slots[i]? = some .taken →
      Step s (.count i)
        { s with counter := s.counter + 1, slots := s.slots.set i (.counted (s.counter + 1)) }
  | raise {i n} : s.slots[i]? = some (.counted n) →
      Step s (.write i)
        { s with meter := s.meter.set .poolInUse n.toNat, slots := s.slots.set i .held }
  | uncount {i} : s.slots[i]? = some .held →
      Step s (.uncount i)
        { s with counter := s.counter - 1, slots := s.slots.set i (.uncounted (s.counter - 1)) }
  | lower {i n} : s.slots[i]? = some (.uncounted n) →
      Step s (.write i)
        { s with meter := s.meter.set .poolInUse n.toNat, slots := s.slots.set i .written }
  | giveBack {i} : s.slots[i]? = some .written →
      Step s (.giveBack i) { s with free := s.free + 1, slots := s.slots.set i .returned }
  | close : Step s .close { s with isOpen := false }

variable {s t u : Slots} {m : Move} {moves before after : List Move} {size i j : Nat} {n : UInt64}

theorem step_of_step? (h : s.step? m = some t) : s.Step m t := by
  cases m with
  | take =>
    simp only [step?] at h
    split at h
    · rename_i hcan
      cases h
      exact .take hcan.2
    · cases h
  | close =>
    cases h
    exact .close
  | write i =>
    simp only [step?] at h
    split at h
    · rename_i hphase
      cases h
      exact .raise hphase
    · rename_i hphase
      cases h
      exact .lower hphase
    · cases h
  | count i | uncount i | giveBack i =>
    simp only [step?] at h
    split at h
    · rename_i hphase
      cases h
      constructor
      exact hphase
    · cases h

/-! ## Permits and the counter -/

/-- The permits that are taken, and the counter, are told from the slots. -/
structure Balanced (size : Nat) (s : Slots) : Prop where
  permits : s.taken + s.free = max size 1
  counter : s.counter.toNat = s.slots.countP SlotPhase.isCounted

theorem countP_isCounted_le (s : Slots) : s.slots.countP SlotPhase.isCounted ≤ s.taken :=
  List.countP_mono_left fun phase _ h => by cases phase <;> first | rfl | cases h

theorem Balanced.counter_le (h : s.Balanced size) : s.counter.toNat ≤ s.taken :=
  h.counter ▸ s.countP_isCounted_le

/-- A slot that is not counted yet leaves room for the counter to be raised. -/
theorem Balanced.toNat_add_one (h : s.Balanced size) (hsize : size ≤ Pool.maxSize) :
    (s.counter + 1).toNat = s.counter.toNat + 1 := by
  have hle := h.counter_le
  have hpermits := h.permits
  have hmax : Pool.maxSize < 2 ^ 61 := by decide
  rw [UInt64.toNat_add]
  exact Nat.mod_eq_of_lt (by simp; omega)

/-- A slot that is counted leaves room for the counter to be lowered. -/
theorem Balanced.toNat_sub_one (h : s.Balanced size) (hphase : s.slots[i]? = some .held) :
    (s.counter - 1).toNat + 1 = s.counter.toNat := by
  have hpos : 0 < s.slots.countP SlotPhase.isCounted :=
    List.countP_pos_iff.2 ⟨_, List.mem_of_getElem? hphase, rfl⟩
  have hcounter := h.counter
  have hone : (1 : UInt64).toNat = 1 := rfl
  rw [UInt64.toNat_sub_of_le _ _ (UInt64.le_iff_toNat_le.2 (by omega)), hone]
  omega

theorem balanced_new (size : Nat) : (new size).Balanced size := ⟨by simp [new, taken], rfl⟩

/-- A slot goes on to another phase, and the permits and the counter with it. -/
theorem Balanced.replace {phase phase' : SlotPhase} (h : s.Balanced size)
    (hphase : s.slots[i]? = some phase) (hslots : t.slots = s.slots.set i phase')
    (hfree : t.free + phase'.hasPermit.toNat = s.free + phase.hasPermit.toNat)
    (hcounter : t.counter.toNat + phase.isCounted.toNat =
      s.counter.toNat + phase'.isCounted.toNat) : t.Balanced size := by
  have hpermit := countP_set_add (b := phase') SlotPhase.hasPermit hphase
  have hcounted := countP_set_add (b := phase') SlotPhase.isCounted hphase
  rw [← hslots] at hpermit hcounted
  have hbefore := h.permits
  have hbefore' := h.counter
  unfold taken at hbefore
  exact ⟨by unfold taken; omega, by omega⟩

theorem Balanced.step (h : s.Balanced size) (hsize : size ≤ Pool.maxSize) (hs : s.Step m t) :
    t.Balanced size := by
  cases hs with
  | take hfree =>
    have hpermits := h.permits
    have htaken : (s.slots ++ [SlotPhase.taken]).countP SlotPhase.hasPermit = s.taken + 1 := by
      rw [List.countP_append]
      rfl
    have hcounted : (s.slots ++ [SlotPhase.taken]).countP SlotPhase.isCounted =
        s.slots.countP SlotPhase.isCounted := by
      rw [List.countP_append]
      rfl
    refine ⟨?_, h.counter.trans hcounted.symm⟩
    show (s.slots ++ [SlotPhase.taken]).countP SlotPhase.hasPermit + (s.free - 1) = max size 1
    omega
  | close => exact ⟨h.permits, h.counter⟩
  | count hphase => exact h.replace hphase rfl rfl (h.toNat_add_one hsize)
  | uncount hphase => exact h.replace hphase rfl rfl (h.toNat_sub_one hphase)
  | raise hphase | lower hphase | giveBack hphase => exact h.replace hphase rfl rfl rfl

/-! ## Changes and what becomes of them -/

/-- The slot that changes the counter. -/
def Move.changer? : Move → Option Nat
  | .count i | .uncount i => some i
  | _ => none

/-- The slot that writes the gauge. -/
def Move.writer? : Move → Option Nat
  | .write i => some i
  | _ => none

/-- The slot that was the last one to change the counter. -/
def lastChanger? (moves : List Move) : Option Nat := (moves.filterMap Move.changer?).getLast?

/-- The slot that was the last one to write the gauge. -/
def lastWriter? (moves : List Move) : Option Nat := (moves.filterMap Move.writer?).getLast?

theorem lastWriter?_snoc (moves : List Move) (m : Move) :
    lastWriter? (moves ++ [m]) = m.writer?.or (lastWriter? moves) := by
  unfold lastWriter?
  rw [List.filterMap_append, List.getLast?_append]
  cases hm : m.writer? <;> simp [hm]

/-- **The last change that a slot made** brought the counter to a value. -/
def Shown (size : Nat) (moves : List Move) (i : Nat) (n : UInt64) : Prop :=
  ∃ before m after u, moves = before ++ m :: after ∧ m.changer? = some i ∧
    (∀ m' ∈ after, m'.changer? ≠ some i) ∧ (new size).run? (before ++ [m]) = some u ∧
    u.counter = n

theorem Shown.snoc (h : Shown size moves i n) (hm : m.changer? ≠ some i) :
    Shown size (moves ++ [m]) i n := by
  obtain ⟨before, m₀, after, u, rfl, hm₀, hafter, hrun, hn⟩ := h
  refine ⟨before, m₀, after ++ [m], u, by simp, hm₀, fun m' hm' => ?_, hrun, hn⟩
  rcases List.mem_append.1 hm' with hm' | hm'
  · exact hafter m' hm'
  · exact List.mem_singleton.1 hm' ▸ hm

/-- The counter is left as it is by steps that do not change it. -/
theorem counter_of_run (h : s.run? moves = some t) (hnone : ∀ m ∈ moves, m.changer? = none) :
    t.counter = s.counter := by
  refine foldlM_history
    (P := fun moves t => (∀ m ∈ moves, m.changer? = none) → t.counter = s.counter)
    (fun _ => rfl) ?_ h hnone
  intro before t m u ih hstep hnone
  have hbefore := ih fun m hm => hnone m (List.mem_append_left _ hm)
  have hm := hnone m (by simp)
  cases step_of_step? hstep with
  | count | uncount => cases hm
  | _ => exact hbefore

/-- If nobody has changed the counter since, then it is what it came to by the last change. -/
theorem Shown.counter_eq (h : Shown size moves i n) (hrun : (new size).run? moves = some s)
    (hlast : lastChanger? moves = some i) : s.counter = n := by
  obtain ⟨before, m, after, u, rfl, hm, hafter, hu, rfl⟩ := h
  have hnone : ∀ m' ∈ after, m'.changer? = none := by
    have hafter' : after.filterMap Move.changer? = [] := by
      by_contra hsome
      obtain ⟨k, hk⟩ := Option.ne_none_iff_exists'.1 (mt List.getLast?_eq_none_iff.1 hsome)
      have hki : k = i := by
        rw [lastChanger?, List.filterMap_append, List.filterMap_cons_some hm,
          List.getLast?_append, List.getLast?_cons, hk] at hlast
        simpa using hlast
      obtain ⟨m', hm', hchanges⟩ := List.mem_filterMap.1 (List.mem_of_getLast? hk)
      exact hafter m' hm' (hki ▸ hchanges)
    exact List.filterMap_eq_nil_iff.1 hafter'
  have hsplit : before ++ m :: after = (before ++ [m]) ++ after := by simp
  rw [hsplit] at hrun
  exact counter_of_run ((foldlM_append_of_run hu).symm.trans hrun) hnone

/-! ## Values on their way to the gauge -/

/-- What a slot is about to write, if it is there. -/
def carried? (s : Slots) (i : Nat) : Option (Option UInt64) :=
  (s.slots[i]?).map SlotPhase.value?

theorem carried?_set {phase phase' : SlotPhase} {v : Option UInt64}
    (hphase : s.slots[i]? = some phase) (hslots : t.slots = s.slots.set i phase')
    (hvalue : phase'.value? = v) (j : Nat) :
    t.carried? j = if j = i then some v else s.carried? j := by
  have hi : i < s.slots.length := (List.getElem?_eq_some_iff.1 hphase).1
  unfold carried?
  rw [hslots, List.getElem?_set]
  by_cases hij : i = j
  · rw [if_pos hij, if_pos hi, if_pos hij.symm, Option.map_some, hvalue]
  · rw [if_neg hij, if_neg (Ne.symm hij)]

/-- Slots that have not written it yet carry what their last change came to, and so does the gauge
once the slot that wrote last carries nothing else. -/
structure Carried (size : Nat) (moves : List Move) (s : Slots) : Prop where
  run : (new size).run? moves = some s
  pending : ∀ i n, s.carried? i = some (some n) → Shown size moves i n
  told : ∀ i, lastWriter? moves = some i → (s.carried? i).isSome ∧
    (s.carried? i = some none → ∃ n, Shown size moves i n ∧ s.gauge = n.toNat)
  untold : lastWriter? moves = none → s.gauge = 0

theorem Carried.start (size : Nat) : Carried size [] (new size) where
  run := rfl
  pending := nofun
  told := nofun
  untold _ := rfl

namespace Carried

/-- A slot changes the counter. -/
theorem change (h : Carried size before s) (hstep : s.step? m = some t)
    (hm : m.changer? = some i) (hwriter : m.writer? = none)
    (hcarried : ∀ j, t.carried? j = if j = i then some (some t.counter) else s.carried? j)
    (hgauge : t.gauge = s.gauge) : Carried size (before ++ [m]) t := by
  have hrun : (new size).run? (before ++ [m]) = some t := foldlM_snoc_of_run h.run hstep
  have hother : ∀ j, j ≠ i → m.changer? ≠ some j := fun j hj he =>
    hj (Option.some.inj (he.symm.trans hm))
  refine ⟨hrun, fun j n hn => ?_, fun j hj => ?_, fun hnone => ?_⟩
  · rw [hcarried] at hn
    split at hn
    · rename_i hji
      cases hn
      exact ⟨before, m, [], t, rfl, hji ▸ hm, nofun, hrun, rfl⟩
    · rename_i hji
      exact (h.pending j n hn).snoc (hother j hji)
  · rw [lastWriter?_snoc, hwriter, Option.none_or] at hj
    obtain ⟨hthere, htold⟩ := h.told j hj
    rw [hcarried, hgauge]
    split
    · exact ⟨rfl, nofun⟩
    · rename_i hji
      refine ⟨hthere, fun hnone => ?_⟩
      obtain ⟨n, hn, hgauge⟩ := htold hnone
      exact ⟨n, hn.snoc (hother j hji), hgauge⟩
  · rw [lastWriter?_snoc, hwriter, Option.none_or] at hnone
    exact hgauge.trans (h.untold hnone)

/-- A slot writes the gauge. -/
theorem write (h : Carried size before s) (hstep : s.step? m = some t)
    (hm : m.changer? = none) (hwriter : m.writer? = some i)
    (hpending : s.carried? i = some (some n))
    (hcarried : ∀ j, t.carried? j = if j = i then some none else s.carried? j)
    (hgauge : t.gauge = n.toNat) : Carried size (before ++ [m]) t := by
  have hother : ∀ j, m.changer? ≠ some j := fun j => hm ▸ nofun
  have hlast : lastWriter? (before ++ [m]) = some i := by
    rw [lastWriter?_snoc, hwriter, Option.some_or]
  refine ⟨foldlM_snoc_of_run h.run hstep, fun j n' hn => ?_, fun j hj => ?_, fun hnone => ?_⟩
  · rw [hcarried] at hn
    split at hn
    · cases hn
    · exact (h.pending j n' hn).snoc (hother j)
  · cases hlast.symm.trans hj
    rw [hcarried, if_pos rfl]
    exact ⟨rfl, fun _ => ⟨n, (h.pending i n hpending).snoc (hother i), hgauge⟩⟩
  · cases hlast.symm.trans hnone

/-- Nothing is changed or written, and a slot that is new carries nothing. -/
theorem keep (h : Carried size before s) (hstep : s.step? m = some t)
    (hm : m.changer? = none) (hwriter : m.writer? = none)
    (hcarried : ∀ j, t.carried? j = s.carried? j ∨
      s.carried? j = none ∧ t.carried? j = some none)
    (hgauge : t.gauge = s.gauge) : Carried size (before ++ [m]) t := by
  have hother : ∀ j, m.changer? ≠ some j := fun j => hm ▸ nofun
  refine ⟨foldlM_snoc_of_run h.run hstep, fun j n hn => ?_, fun j hj => ?_, fun hnone => ?_⟩
  · rcases hcarried j with hsame | ⟨-, hnew⟩
    · exact (h.pending j n (hsame ▸ hn)).snoc (hother j)
    · cases hnew.symm.trans hn
  · rw [lastWriter?_snoc, hwriter, Option.none_or] at hj
    obtain ⟨hthere, htold⟩ := h.told j hj
    rcases hcarried j with hsame | ⟨habsent, -⟩
    · rw [hsame, hgauge]
      refine ⟨hthere, fun hnone => ?_⟩
      obtain ⟨n, hn, htold⟩ := htold hnone
      exact ⟨n, hn.snoc (hother j), htold⟩
    · rw [habsent] at hthere
      cases hthere
  · rw [lastWriter?_snoc, hwriter, Option.none_or] at hnone
    exact hgauge.trans (h.untold hnone)

theorem step (h : Carried size before s) (hstep : s.step? m = some t) :
    Carried size (before ++ [m]) t := by
  cases step_of_step? hstep with
  | take =>
    refine h.keep hstep rfl rfl (fun j => ?_) rfl
    unfold carried?
    rcases Nat.lt_trichotomy j s.slots.length with hj | rfl | hj
    · exact .inl (by rw [List.getElem?_append_left hj])
    · exact .inr ⟨by simp, by simp [SlotPhase.value?]⟩
    · refine .inl ?_
      rw [List.getElem?_eq_none (by simp; omega), List.getElem?_eq_none (by omega)]
  | close => exact h.keep hstep rfl rfl (fun _ => .inl rfl) rfl
  | count hphase | uncount hphase =>
    exact h.change hstep rfl rfl (carried?_set hphase rfl rfl) rfl
  | raise hphase | lower hphase =>
    exact h.write hstep rfl rfl (by rw [carried?, hphase]; rfl) (carried?_set hphase rfl rfl)
      (Meter.value_set ..)
  | giveBack hphase =>
    refine h.keep hstep rfl rfl (fun j => .inl ?_) rfl
    rw [carried?_set hphase rfl rfl j]
    split
    · rename_i hj
      subst hj
      rw [carried?, hphase]
      rfl
    · rfl

end Carried

theorem carried_run (h : (new size).run? moves = some s) : Carried size moves s :=
  foldlM_history (P := Carried size) (.start size) (fun hkept hstep => hkept.step hstep) h

theorem Balanced.run (h : s.Balanced size) (hsize : size ≤ Pool.maxSize)
    (hrun : s.run? moves = some t) : t.Balanced size :=
  foldlM_induction (P := Balanced size) (fun hs hstep => hs.step hsize (step_of_step? hstep)) h hrun

/-- Where no slot is half taken or half given back all slots with a permit are counted. -/
theorem Quiet.countP_eq (h : s.Quiet) : s.slots.countP SlotPhase.isCounted = s.taken :=
  List.countP_congr fun phase hphase => by
    have hwhole := h phase hphase
    cases phase <;> first | rfl | cases hwhole

theorem Quiet.carried?_eq (h : s.Quiet) (hthere : (s.carried? i).isSome) :
    s.carried? i = some none := by
  obtain ⟨v, hv⟩ := Option.isSome_iff_exists.1 hthere
  obtain ⟨phase, hphase, rfl⟩ := Option.map_eq_some_iff.1 hv
  rw [hv]
  have hwhole := h phase (List.mem_of_getElem? hphase)
  cases phase <;> first | rfl | cases hwhole

/-- **The counter is right, and the gauge as far as its writes kept their order.** At any moment the
counter is at most the number of permits that are taken, and with those that are free they make up
the pool; a slot that gives itself back finds the counter above zero. Where no slot is half taken or
half given back, the counter is the number of slots that are taken, and the gauge shows what the
counter came to when the slot that wrote last made its last change. So it shows the counter itself
if that slot was the last one to change it. -/
theorem gauge_of_run (hsize : size ≤ Pool.maxSize) (h : (new size).run? moves = some s) :
    (s.counter.toNat ≤ s.taken ∧ s.taken + s.free = max size 1) ∧
      (∀ i t, s.step? (.uncount i) = some t → t.counter.toNat + 1 = s.counter.toNat) ∧
      (s.Quiet → s.counter.toNat = s.taken ∧
        (∀ i, lastWriter? moves = some i → ∃ n, Shown size moves i n ∧ s.gauge = n.toNat) ∧
        (lastChanger? moves = lastWriter? moves → s.gauge = s.counter.toNat)) := by
  have hbalanced := (balanced_new size).run hsize h
  have hcarried := carried_run h
  refine ⟨⟨hbalanced.counter_le, hbalanced.permits⟩, fun i t ht => ?_, fun hquiet => ?_⟩
  · cases step_of_step? ht with
    | uncount hphase => exact hbalanced.toNat_sub_one hphase
  have htold : ∀ i, lastWriter? moves = some i → ∃ n, Shown size moves i n ∧ s.gauge = n.toNat :=
    fun i hi => (hcarried.told i hi).2 (hquiet.carried?_eq (hcarried.told i hi).1)
  refine ⟨hbalanced.counter.trans hquiet.countP_eq, htold, fun hsame => ?_⟩
  cases hlast : lastWriter? moves with
  | none =>
    have hnone : ∀ m ∈ moves, m.changer? = none := by
      have hchanges := List.getLast?_eq_none_iff.1 (hsame.trans hlast)
      exact List.filterMap_eq_nil_iff.1 hchanges
    rw [hcarried.untold hlast, counter_of_run h hnone]
    rfl
  | some i =>
    obtain ⟨n, hn, hgauge⟩ := htold i hlast
    rw [hgauge, hn.counter_eq h (hsame.trans hlast)]

/-- Two slots are taken, and one of them is given back. -/
def orderly : List Move :=
  [.take, .take, .count 0, .write 0, .count 1, .write 1, .uncount 0, .write 0, .giveBack 0]

/-- The gauge shows the slot that is left. -/
theorem gauge_of_run_orderly :
    ∃ s, 2 ≤ Pool.maxSize ∧ (new 2).run? orderly = some s ∧ s.Quiet ∧ s.taken = 1 ∧
      s.counter.toNat = s.taken ∧ s.gauge = s.counter.toNat := by
  have hsize : 2 ≤ Pool.maxSize := by decide
  have hend : ((new 2).run? orderly).map (fun s => (decide s.Quiet, s.taken)) = some (true, 1) := by
    decide
  obtain ⟨s, hrun, hend⟩ := Option.map_eq_some_iff.1 hend
  simp only [Prod.mk.injEq, decide_eq_true_eq] at hend
  obtain ⟨-, -, hquiet⟩ := gauge_of_run hsize hrun
  obtain ⟨hcounter, -, hgauge⟩ := hquiet hend.1
  exact ⟨s, hsize, hrun, hend.1, hend.2, hcounter, hgauge (by decide)⟩

/-- Two slots are given back; the one that changed the counter first writes last. -/
def overtaken : List Move :=
  [.take, .take, .count 0, .write 0, .count 1, .write 1,
    .uncount 0, .uncount 1, .write 1, .write 0, .giveBack 0, .giveBack 1]

/-- **The gauge may be wrong, and stays so.** All slots were given back, the counter is zero, and
the gauge shows that one is taken. -/
theorem stale_of_run :
    ∃ s, (new 2).run? overtaken = some s ∧ s.Quiet ∧ s.taken = 0 ∧ s.free = 2 ∧
      s.counter = 0 ∧ s.gauge = 1 :=
  ⟨_, rfl, by decide, rfl, rfl, rfl, rfl⟩

/-! ## Pools that take their slots at a stroke -/

/-- A slot taken with nobody coming between its steps. -/
def taking (i : Nat) : List Move := [.take, .count i, .write i]

/-- A slot given back with nobody coming between its steps. -/
def giving (i : Nat) : List Move := [.uncount i, .write i, .giveBack i]

theorem run?_taking (hopen : s.isOpen = true) (hfree : 0 < s.free) :
    s.run? (taking s.slots.length) =
      some ⟨s.free - 1, s.isOpen, s.counter + 1,
        s.meter.set .poolInUse (s.counter + 1).toNat, s.slots ++ [.held]⟩ := by
  simp [run?, taking, step?, hopen, hfree]

theorem run?_giving (hphase : s.slots[i]? = some .held) :
    s.run? (giving i) =
      some ⟨s.free + 1, s.isOpen, s.counter - 1,
        s.meter.set .poolInUse (s.counter - 1).toNat, s.slots.set i .returned⟩ := by
  obtain ⟨hi, hheld⟩ := List.getElem?_eq_some_iff.1 hphase
  simp [run?, giving, step?, hi, hheld]

/-- The slots of the jobs that are running in a pool, whose number the gauge shows. -/
structure Stands {α : Type} (p : Pool α) (s : Slots) : Prop where
  quiet : s.Quiet
  balanced : s.Balanced p.size
  running : s.taken = p.inUse
  isOpen : s.isOpen = p.isOpen
  gauge : s.gauge = p.inUse

namespace Stands

variable {α : Type} {p q : Pool α} {job : α}

theorem idle (size : Nat) : Stands (Pool.idle size : Pool α) (new size) where
  quiet := nofun
  balanced := ⟨by simp [new, taken, Pool.idle], rfl⟩
  running := rfl
  isOpen := rfl
  gauge := rfl

theorem counter (h : Stands p s) : s.counter.toNat = p.inUse :=
  h.balanced.counter.trans (h.quiet.countP_eq.trans h.running)

/-- One more job is running. -/
theorem take (h : Stands p s) (hsize : p.size ≤ Pool.maxSize) (hopen : p.isOpen = true)
    (hfree : p.inUse < p.size) (hqsize : q.size = p.size) (hqopen : q.isOpen = true)
    (hq : q.inUse = p.inUse + 1) : ∃ moves t, s.run? moves = some t ∧ Stands q t := by
  have hpermits := h.balanced.permits
  have hrunning := h.running
  have hrun := run?_taking (h.isOpen.trans hopen) (by omega)
  have hraised := h.balanced.toNat_add_one hsize
  refine ⟨_, _, hrun, ?_, hqsize ▸ h.balanced.run hsize hrun, ?_, ?_, ?_⟩
  · intro phase hphase
    rcases List.mem_append.1 hphase with hold | hnew
    · exact h.quiet phase hold
    · exact List.mem_singleton.1 hnew ▸ rfl
  · show (s.slots ++ [SlotPhase.held]).countP _ = q.inUse
    rw [List.countP_append, hq, ← hrunning]
    rfl
  · exact h.isOpen.trans (hopen.trans hqopen.symm)
  · rw [Slots.gauge, Meter.value_set, hraised, h.counter, hq]

/-- One job is not running any more. -/
theorem give (h : Stands p s) (hsize : p.size ≤ Pool.maxSize) (hqsize : q.size = p.size)
    (hqopen : q.isOpen = p.isOpen) (hq : q.inUse + 1 = p.inUse) :
    ∃ moves t, s.run? moves = some t ∧ Stands q t := by
  have hrunning := h.running
  obtain ⟨phase, hmem, hpermit⟩ : ∃ phase ∈ s.slots, phase.hasPermit = true :=
    List.countP_pos_iff.1 (show 0 < s.taken by omega)
  have hheld : phase = .held := SlotPhase.eq_held (h.quiet phase hmem) hpermit
  obtain ⟨i, hphase⟩ := List.getElem?_of_mem (hheld ▸ hmem)
  have hrun := run?_giving hphase
  have hlowered := h.balanced.toNat_sub_one hphase
  have hcounter := h.counter
  refine ⟨_, _, hrun, ?_, hqsize ▸ h.balanced.run hsize hrun, ?_, h.isOpen.trans hqopen.symm, ?_⟩
  · intro phase hphase
    rcases List.mem_or_eq_of_mem_set hphase with hold | rfl
    · exact h.quiet phase hold
    · rfl
  · have htaken := countP_set_add (b := .returned) SlotPhase.hasPermit hphase
    show (s.slots.set i SlotPhase.returned).countP _ = q.inUse
    unfold taken at hrunning
    simp [SlotPhase.hasPermit] at htaken
    omega
  · rw [Slots.gauge, Meter.value_set]
    omega

/-- **A pool does what slots can do**, with nobody coming between the steps of a slot: a job that is
submitted takes a slot, or none. -/
theorem submit (h : Stands p s) (horderly : p.Orderly) (hsize : p.size ≤ Pool.maxSize) (job : α) :
    ∃ moves t, s.run? moves = some t ∧ Stands (p.submit job).1 t := by
  have hsubmission := horderly.submission job
  generalize p.submit job = r at hsubmission ⊢
  cases hsubmission with
  | refused => exact ⟨[], s, rfl, h⟩
  | started hopen _ hfree =>
    exact h.take hsize hopen hfree rfl hopen (List.length_append ..)
  | queued => exact ⟨[], s, rfl, h.quiet, h.balanced, h.running, h.isOpen, h.gauge⟩

/-- A job that has ended gives its slot back, and the first in line takes one. -/
theorem release [BEq α] [LawfulBEq α] (h : Stands p s) (horderly : p.Orderly)
    (hsize : p.size ≤ Pool.maxSize) (hjob : job ∈ p.running) :
    ∃ moves t, s.run? moves = some t ∧ Stands (p.release job).1 t := by
  have hlength := List.length_erase_of_mem hjob
  have hpos := List.length_pos_of_mem hjob
  have hbounded := horderly.bounded
  have hgiven := h.give (q := { p with running := p.running.erase job, line := [] }) hsize rfl rfl
    (show (p.running.erase job).length + 1 = p.running.length by omega)
  have hhandover := horderly.handover hjob
  generalize p.release job = r at hhandover ⊢
  cases hhandover with
  | free hline =>
    obtain ⟨moves, t, hrun, ht⟩ := hgiven
    exact ⟨moves, t, hrun, ht.quiet, ht.balanced, ht.running, ht.isOpen, ht.gauge⟩
  | @next next line hline =>
    obtain ⟨moves, t, hrun, ht⟩ := hgiven
    have hopen : p.isOpen = true := by
      by_contra hclosed
      cases hline.symm.trans (horderly.closed (Bool.not_eq_true _ ▸ hclosed))
    obtain ⟨moves', u, hrun', hu⟩ := ht.take
      (q := { p with running := p.running.erase job ++ [next], line }) hsize hopen
      (show (p.running.erase job).length < p.size by omega) rfl hopen (List.length_append ..)
    exact ⟨moves ++ moves', u, (foldlM_append_of_run hrun).trans hrun', hu⟩

theorem close (h : Stands p s) : ∃ moves t, s.run? moves = some t ∧ Stands p.close.1 t :=
  ⟨[.close], _, rfl, h.quiet, ⟨h.balanced.permits, h.balanced.counter⟩, h.running, rfl, h.gauge⟩

end Stands

end Slots

end Correlator
