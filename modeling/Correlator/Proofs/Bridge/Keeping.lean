import Mathlib.Data.List.Induction
import Mathlib.Logic.Function.Basic
import Correlator.Proofs.Bridge.Jobs

/-!
# Listeners that are kept

Response sources come and go in any order. Somebody looks a listener up and keeps it, and hands it
events later, when the source may be gone, or back, or another one may be in its place.

* `Keeping`, `Keeping.step`: a bridge with such sources and the listeners that were kept.
* `Keeping.Stands`: a source is registered by a listener; `Keeping.stands_run`: it stays so, as
  long as the source is not torn down.
* `Keeping.dead_run`: a listener whose source was torn down is dead for good.
* `Keeping.exists_start`, `Keeping.exists_resolve`: how a listener came into the table, and how it
  came to be kept.
* **`Keeping.forward_of_kept`**: a kept listener hands events to the consumer of the source that
  registered it, until that source is torn down.
-/

namespace Correlator

/-- A response source. -/
structure ResponseSource where
  config : ResponseSourceConfig
  consumer : Consumer

/-- The key that the source registers under. -/
def ResponseSource.key (src : ResponseSource) : Key := Switchboard.responseKey src.config

/-- A bridge whose response sources come and go, and the listeners that were kept. -/
structure Keeping where
  bridge : Bridge
  /-- The pipeline on whose behalf a source is registered, if it is. -/
  holder? : Nat → Option String
  kept : List (Listener Nat)

namespace Keeping

/-- What is done. -/
inductive Act
  /-- A source is started on behalf of a pipeline. -/
  | start (i : Nat) (pipeline : String)
  | teardown (i : Nat)
  /-- The listener of a response is looked up and kept. -/
  | resolve (owner : String) (refinement? : Option String)
  /-- An event is handed to a kept listener. -/
  | deliver (j : Nat) (event : Event)

/-- The listeners that can be found. -/
def responses (t : Keeping) : Registry Nat := t.bridge.switchboard.responses

/-- The same with other tables and other registrations. -/
def shift (t : Keeping) (switchboard : Switchboard) (i : Nat) (pipeline? : Option String) :
    Keeping :=
  { t with
    bridge := { t.bridge with switchboard }
    holder? := Function.update t.holder? i pipeline? }

/-- One act. A start in vain changes nothing, and neither does the teardown of a source that is
not registered. -/
def step (sources : List ResponseSource) (t : Keeping) : Act → Keeping
  | .start i pipeline =>
    match sources[i]? with
    | none => t
    | some src =>
      match t.bridge.switchboard.plugForwarder src.config pipeline src.consumer with
      | .ok switchboard => t.shift switchboard i (some pipeline)
      | .error _ => t
  | .teardown i =>
    match sources[i]?, t.holder? i with
    | some src, some pipeline =>
      t.shift (t.bridge.switchboard.pullForwarder src.config pipeline) i none
    | _, _ => t
  | .resolve owner refinement? =>
    { t with kept := t.kept ++ (t.responses.resolve? owner refinement?).toList }
  | .deliver j event =>
    match t.kept[j]? with
    | some l => { t with bridge := (t.bridge.forward l.handler event).1 }
    | none => t

/-- Acts one after another. -/
def run (sources : List ResponseSource) (t : Keeping) (acts : List Act) : Keeping :=
  acts.foldl (step sources) t

/-- No source is registered yet. -/
def fresh (b : Bridge) : Keeping := ⟨{ b with switchboard := .empty }, fun _ => none, []⟩

variable {sources : List ResponseSource} {t : Keeping} {a : Act} {acts : List Act} {i : Nat}
  {l : Listener Nat}

theorem run_append (sources : List ResponseSource) (t : Keeping) (acts acts' : List Act) :
    t.run sources (acts ++ acts') = (t.run sources acts).run sources acts' :=
  List.foldl_append ..

/-! ## Registrations -/

/-- The source is registered by the listener. -/
structure Stands (sources : List ResponseSource) (t : Keeping) (i : Nat) (l : Listener Nat) :
    Prop where
  holder : t.holder? i = some l.owner
  found : t.responses.lookup? l.key = some l
  source : ∃ src, sources[i]? = some src ∧ src.key = l.key ∧
    t.bridge.switchboard.forwarder? l.handler = some ⟨src.consumer, true⟩

/-- Nothing is handed on by the listener any more. -/
def Dead (t : Keeping) (l : Listener Nat) : Prop :=
  ∃ k, t.bridge.switchboard.forwarder? l.handler = some ⟨k, false⟩

/-- Sources and listeners belong to each other. -/
structure Paired (sources : List ResponseSource) (t : Keeping) : Prop where
  wired : t.bridge.switchboard.Wired
  listed : ∀ l ∈ t.responses.listeners, ∃ i, t.Stands sources i l
  held : ∀ i pipeline, t.holder? i = some pipeline → ∃ l, t.Stands sources i l
  alone : ∀ i i' l l', t.Stands sources i l → t.Stands sources i' l' → l.key = l'.key → i = i'

theorem Stands.mem (h : t.Stands sources i l) : l ∈ t.responses.listeners :=
  List.mem_of_find?_eq_some h.found

/-- A source is registered by one listener. -/
theorem Stands.unique {l' : Listener Nat} (h : t.Stands sources i l) (h' : t.Stands sources i l') :
    l = l' := by
  obtain ⟨src, hsrc, hkey, -⟩ := h.source
  obtain ⟨src', hsrc', hkey', -⟩ := h'.source
  cases hsrc.symm.trans hsrc'
  have hfound := h'.found
  rw [← hkey', hkey, h.found] at hfound
  exact Option.some.inj hfound

theorem paired_fresh (sources : List ResponseSource) (b : Bridge) : (fresh b).Paired sources where
  wired := Switchboard.wired_empty
  listed l hl := by cases hl
  held i pipeline hi := by cases hi
  alone i i' l l' hi := by cases hi.holder

/-- A source that stands stands, as long as the tables and the registrations are as they were. -/
theorem Stands.of_eq {t' : Keeping} (h : t.Stands sources i l)
    (hs : t'.bridge.switchboard = t.bridge.switchboard) (hh : t'.holder? = t.holder?) :
    t'.Stands sources i l := by
  obtain ⟨hholder, hfound, hsource⟩ := h
  refine ⟨hh ▸ hholder, ?_, hs ▸ hsource⟩
  rw [responses, hs]
  exact hfound

theorem Paired.of_eq {t' : Keeping} (h : t.Paired sources)
    (hs : t'.bridge.switchboard = t.bridge.switchboard) (hh : t'.holder? = t.holder?) :
    t'.Paired sources where
  wired := hs ▸ h.wired
  listed l hl := by
    rw [responses, hs] at hl
    obtain ⟨i, hi⟩ := h.listed l hl
    exact ⟨i, hi.of_eq hs hh⟩
  held i pipeline hi := by
    obtain ⟨l, hl⟩ := h.held i pipeline (hh ▸ hi)
    exact ⟨l, hl.of_eq hs hh⟩
  alone i i' l l' hi hi' :=
    h.alone i i' l l' (hi.of_eq hs.symm hh.symm) (hi'.of_eq hs.symm hh.symm)

/-! ## What an act does -/

/-- Whoever is handed an event, the tables stay as they are. -/
theorem switchboard_forward (b : Bridge) (n : Nat) (event : Event) :
    (b.forward n event).1.switchboard = b.switchboard := by
  rw [Bridge.forward_eq]
  split
  · rw [Bridge.hand_eq]
  · rfl

/-- The listener of a source that is started. -/
def listenerOf (t : Keeping) (src : ResponseSource) (pipeline : String) : Listener Nat :=
  ⟨src.key, pipeline, src.config.download, t.bridge.switchboard.forwarderList.length⟩

/-- The tables once a source was started. -/
def plugged (t : Keeping) (src : ResponseSource) (pipeline : String) : Switchboard :=
  { t.bridge.switchboard with
    responses := ⟨t.responses.listeners ++ [t.listenerOf src pipeline]⟩
    forwarderList := t.bridge.switchboard.forwarderList ++ [⟨src.consumer, true⟩] }

/-- The tables once the source of a listener was torn down. -/
def pulled (t : Keeping) (l : Listener Nat) : Switchboard :=
  { t.bridge.switchboard with
    responses := ⟨t.responses.listeners.filter fun l' => l'.key ≠ l.key⟩
    forwarderList := t.bridge.switchboard.forwarderList.modify l.handler Forwarder.close }

/-- What an act does to the tables and to the registrations. -/
inductive Effect (sources : List ResponseSource) (t : Keeping) (a : Act) (t' : Keeping) : Prop
  /-- A source comes whose key is free. -/
  | comes (i : Nat) (pipeline : String) (src : ResponseSource) : a = .start i pipeline →
      sources[i]? = some src → t.responses.lookup? src.key = none →
      t' = t.shift (t.plugged src pipeline) i (some pipeline) → Effect sources t a t'
  /-- A source goes, with its listener. -/
  | goes (i : Nat) (l : Listener Nat) : a = .teardown i → t.Stands sources i l →
      t' = t.shift (t.pulled l) i none → Effect sources t a t'
  | none : t'.bridge.switchboard = t.bridge.switchboard → t'.holder? = t.holder? →
      (∀ i, a = .teardown i → ∀ l, ¬t.Stands sources i l) → Effect sources t a t'

theorem effect_start (sources : List ResponseSource) (t : Keeping) (i : Nat) (pipeline : String) :
    Effect sources t (.start i pipeline) (t.step sources (.start i pipeline)) := by
  simp only [step]
  split
  · exact .none rfl rfl nofun
  · rename_i src hsrc
    split
    · rename_i s hs
      obtain ⟨responses, hr, rfl⟩ := Switchboard.plugForwarder_eq_ok hs
      obtain ⟨hfree, rfl⟩ := Registry.register_eq_ok.1 hr
      exact .comes i pipeline src rfl hsrc hfree rfl
    · exact .none rfl rfl nofun

theorem register_listenerOf {src : ResponseSource} (hfree : t.responses.lookup? src.key = none)
    (pipeline : String) :
    t.responses.register (t.listenerOf src pipeline) =
      .ok ⟨t.responses.listeners ++ [t.listenerOf src pipeline]⟩ :=
  Registry.register_eq_ok.2 ⟨hfree, rfl⟩

theorem plugForwarder_eq {src : ResponseSource} (hfree : t.responses.lookup? src.key = none)
    (pipeline : String) :
    t.bridge.switchboard.plugForwarder src.config pipeline src.consumer =
      .ok (t.plugged src pipeline) := by
  have hr := register_listenerOf hfree pipeline
  simp only [listenerOf, ResponseSource.key, responses] at hr
  simp only [Switchboard.plugForwarder, hr]
  rfl

/-- The listener of a source is taken out of the table. -/
theorem Stands.unregister? (h : t.Stands sources i l) :
    t.responses.unregister? l.key l.owner =
      some (l, ⟨t.responses.listeners.filter fun l' => l'.key ≠ l.key⟩) :=
  Registry.unregister?_eq_some.2 ⟨h.found, rfl, rfl⟩

theorem Stands.pullForwarder {src : ResponseSource} (h : t.Stands sources i l)
    (hkey : src.key = l.key) :
    t.bridge.switchboard.pullForwarder src.config l.owner = t.pulled l := by
  have hu : t.bridge.switchboard.responses.unregister? (Switchboard.responseKey src.config)
      l.owner = some (l, ⟨t.responses.listeners.filter fun l' => l'.key ≠ l.key⟩) :=
    hkey ▸ h.unregister?
  simp only [Switchboard.pullForwarder, hu]
  rfl

theorem effect_teardown (h : t.Paired sources) (i : Nat) :
    Effect sources t (.teardown i) (t.step sources (.teardown i)) := by
  simp only [step]
  split
  · rename_i src pipeline hsrc hholder
    obtain ⟨l, hl⟩ := h.held i pipeline hholder
    obtain ⟨src', hsrc', hkey, -⟩ := hl.source
    obtain rfl : src' = src := Option.some.inj (hsrc'.symm.trans hsrc)
    obtain rfl : l.owner = pipeline := Option.some.inj (hl.holder.symm.trans hholder)
    exact .goes i l rfl hl (by rw [hl.pullForwarder hkey])
  · rename_i hnone
    refine .none rfl rfl fun i' hi' l hl => ?_
    cases hi'
    obtain ⟨src, hsrc, -⟩ := hl.source
    exact hnone src l.owner hsrc hl.holder

/-- Every act is a source that comes, or one that goes, or leaves the tables alone. -/
theorem effect_step (h : t.Paired sources) (a : Act) :
    Effect sources t a (t.step sources a) := by
  cases a with
  | start i pipeline => exact effect_start sources t i pipeline
  | teardown i => exact effect_teardown h i
  | resolve owner refinement? => exact .none rfl rfl nofun
  | deliver j event =>
    simp only [step]
    split
    · exact .none (switchboard_forward ..) rfl nofun
    · exact .none rfl rfl nofun

/-! ## A source that comes -/

section Comes

variable {src : ResponseSource}

/-- A source whose key is free is not registered. -/
theorem Stands.key_ne (h : t.Stands sources i l) (hfree : t.responses.lookup? src.key = none) :
    l.key ≠ src.key := by
  intro he
  have hfound := h.found
  rw [he, hfree] at hfound
  cases hfound

/-- Whoever stood before stands. -/
theorem Stands.comes {i' : Nat} (h : t.Stands sources i l)
    (hfree : t.responses.lookup? src.key = none) (hsrc : sources[i']? = some src)
    (pipeline : String) :
    (t.shift (t.plugged src pipeline) i' (some pipeline)).Stands sources i l := by
  have hne := h.key_ne hfree
  obtain ⟨src', hsrc', hkey, hopen⟩ := h.source
  have hi : i ≠ i' := by
    rintro rfl
    cases hsrc'.symm.trans hsrc
    exact hne hkey.symm
  have hold : Extends (fun _ => True) t.bridge.switchboard.forwarderList
      (t.bridge.switchboard.forwarderList ++ [⟨src.consumer, true⟩]) := .snoc trivial _
  refine ⟨(Function.update_of_ne hi ..).trans h.holder, ?_, src', hsrc', hkey,
    hold.getElem?_eq_some hopen⟩
  have hr := register_listenerOf hfree pipeline
  exact (Registry.lookup?_register hr l.key).trans ((if_neg hne.symm).trans h.found)

/-- So does the source that comes. -/
theorem stands_comes (hfree : t.responses.lookup? src.key = none) (hsrc : sources[i]? = some src)
    (pipeline : String) : (t.shift (t.plugged src pipeline) i (some pipeline)).Stands sources i
      (t.listenerOf src pipeline) := by
  refine ⟨Function.update_self .., ?_, src, hsrc, rfl, List.getElem?_concat_length⟩
  have hr := register_listenerOf hfree pipeline
  exact (Registry.lookup?_register hr src.key).trans (if_pos rfl)

theorem paired_comes (h : t.Paired sources) (hfree : t.responses.lookup? src.key = none)
    (hsrc : sources[i]? = some src) (pipeline : String) :
    (t.shift (t.plugged src pipeline) i (some pipeline)).Paired sources := by
  have hnew := stands_comes hfree hsrc pipeline
  have hback : ∀ i' l, i' ≠ i →
      (t.shift (t.plugged src pipeline) i (some pipeline)).Stands sources i' l →
        t.Stands sources i' l := by
    intro i' l hi hl
    have hholder : t.holder? i' = some l.owner :=
      (Function.update_of_ne hi ..).symm.trans hl.holder
    obtain ⟨l', hl'⟩ := h.held i' l.owner hholder
    rw [hl.unique (hl'.comes hfree hsrc pipeline)]
    exact hl'
  refine ⟨h.wired.plugForwarder (plugForwarder_eq hfree pipeline), fun l hl => ?_,
    fun i' pipeline' hi' => ?_, fun i₁ i₂ l₁ l₂ h₁ h₂ hkey => ?_⟩
  · rcases List.mem_append.1 hl with hl | hl
    · obtain ⟨i', hi'⟩ := h.listed l hl
      exact ⟨i', hi'.comes hfree hsrc pipeline⟩
    · cases List.mem_singleton.1 hl
      exact ⟨i, hnew⟩
  · by_cases hi : i' = i
    · subst hi
      exact ⟨_, hnew⟩
    · obtain ⟨l, hl⟩ := h.held i' pipeline' ((Function.update_of_ne hi ..).symm.trans hi')
      exact ⟨l, hl.comes hfree hsrc pipeline⟩
  · by_cases hi₁ : i₁ = i <;> by_cases hi₂ : i₂ = i
    · exact hi₁.trans hi₂.symm
    · subst hi₁
      cases h₁.unique hnew
      exact absurd hkey.symm ((hback i₂ l₂ hi₂ h₂).key_ne hfree)
    · subst hi₂
      cases h₂.unique hnew
      exact absurd hkey ((hback i₁ l₁ hi₁ h₁).key_ne hfree)
    · exact h.alone i₁ i₂ l₁ l₂ (hback i₁ l₁ hi₁ h₁) (hback i₂ l₂ hi₂ h₂) hkey

end Comes

/-! ## A source that goes -/

/-- Every other source stands as before. -/
theorem Stands.goes {i' : Nat} {l' : Listener Nat} (h : t.Paired sources)
    (hl : t.Stands sources i l) (hl' : t.Stands sources i' l') (hi : i' ≠ i) :
    (t.shift (t.pulled l) i none).Stands sources i' l' := by
  have hkey : l'.key ≠ l.key := fun he => hi (h.alone i' i l' l hl' hl he)
  have hhandler : l.handler ≠ l'.handler := by
    intro he
    have hsame : l = l' := List.inj_on_of_nodup_map h.wired.handlers_nodup hl.mem hl'.mem he
    exact hkey (hsame ▸ rfl)
  obtain ⟨src, hsrc, hsrckey, hopen⟩ := hl'.source
  refine ⟨(Function.update_of_ne hi ..).trans hl'.holder, ?_, src, hsrc, hsrckey, ?_⟩
  · exact (Registry.lookup?_unregister? hl.unregister? l'.key).trans
      ((if_neg hkey).trans hl'.found)
  · exact (List.getElem?_modify_ne _ _ hhandler).trans hopen

theorem paired_goes (h : t.Paired sources) (hl : t.Stands sources i l) :
    (t.shift (t.pulled l) i none).Paired sources := by
  have hgone : ∀ l', ¬(t.shift (t.pulled l) i none).Stands sources i l' := by
    intro l' hl'
    have hnone : (t.shift (t.pulled l) i none).holder? i = none := Function.update_self ..
    cases hnone.symm.trans hl'.holder
  have hback : ∀ i' l', (t.shift (t.pulled l) i none).Stands sources i' l' →
      t.Stands sources i' l' := by
    intro i' l' hl'
    have hi : i' ≠ i := by
      rintro rfl
      exact hgone l' hl'
    obtain ⟨l₀, hl₀⟩ := h.held i' l'.owner ((Function.update_of_ne hi ..).symm.trans hl'.holder)
    rw [hl'.unique (Stands.goes h hl hl₀ hi)]
    exact hl₀
  obtain ⟨src, hsrc, hkey, -⟩ := hl.source
  refine ⟨?_, fun l' hl' => ?_, fun i' pipeline' hi' => ?_, fun i₁ i₂ l₁ l₂ h₁ h₂ =>
    h.alone i₁ i₂ l₁ l₂ (hback i₁ l₁ h₁) (hback i₂ l₂ h₂)⟩
  · have hshifts := Switchboard.shifts_pullForwarder h.wired src.config l.owner
    rw [hl.pullForwarder hkey] at hshifts
    exact hshifts.wired h.wired
  · obtain ⟨hmem, hne⟩ := List.mem_filter.1 hl'
    obtain ⟨i', hi'⟩ := h.listed l' hmem
    have hi : i' ≠ i := by
      rintro rfl
      exact of_decide_eq_true hne (hl.unique hi' ▸ rfl)
    exact ⟨i', Stands.goes h hl hi' hi⟩
  · have hi : i' ≠ i := by
      rintro rfl
      have hnone : (t.shift (t.pulled l) i' none).holder? i' = none := Function.update_self ..
      cases hnone.symm.trans hi'
    obtain ⟨l', hl'⟩ := h.held i' pipeline' ((Function.update_of_ne hi ..).symm.trans hi')
    exact ⟨l', Stands.goes h hl hl' hi⟩

/-- A listener is dead once its source was torn down. -/
theorem dead_goes (hl : t.Stands sources i l) : (t.shift (t.pulled l) i none).Dead l := by
  obtain ⟨src, -, -, hopen⟩ := hl.source
  refine ⟨src.consumer, ?_⟩
  change (t.bridge.switchboard.forwarderList.modify l.handler Forwarder.close)[l.handler]? = _
  rw [List.getElem?_modify_eq]
  exact congrArg (Option.map Forwarder.close) hopen

/-! ## Acts one after another -/

/-- **An act leaves sources and listeners paired.** -/
theorem paired_step (h : t.Paired sources) (a : Act) : (t.step sources a).Paired sources := by
  cases effect_step h a with
  | comes i pipeline src ha hsrc hfree ht => exact ht ▸ paired_comes h hfree hsrc pipeline
  | goes i l ha hl ht => exact ht ▸ paired_goes h hl
  | none hs hh _ => exact h.of_eq hs hh

/-- A source stands until it is torn down. -/
theorem stands_step (h : t.Paired sources) (hl : t.Stands sources i l) (ha : a ≠ .teardown i) :
    (t.step sources a).Stands sources i l := by
  cases effect_step h a with
  | comes i' pipeline src _ hsrc hfree ht => exact ht ▸ hl.comes hfree hsrc pipeline
  | goes i' l' ha' hl' ht =>
    have hi : i ≠ i' := by
      rintro rfl
      exact ha ha'
    exact ht ▸ Stands.goes h hl' hl hi
  | none hs hh _ => exact hl.of_eq hs hh

/-- By its teardown the listener dies. -/
theorem dead_teardown (h : t.Paired sources) (hl : t.Stands sources i l) :
    (t.step sources (.teardown i)).Dead l := by
  cases effect_step h (.teardown i) with
  | comes i' pipeline src ha => cases ha
  | goes i' l' ha hl' ht =>
    cases ha
    cases hl.unique hl'
    exact ht ▸ dead_goes hl
  | none _ _ hnone => exact absurd hl (hnone i rfl l)

/-- A dead listener stays dead, whoever is started again under its key. -/
theorem dead_step (h : t.Paired sources) (hl : t.Dead l) (a : Act) :
    (t.step sources a).Dead l := by
  obtain ⟨k, hk⟩ := hl
  cases effect_step h a with
  | comes i pipeline src _ _ _ ht =>
    have hold : Extends (fun _ => True) t.bridge.switchboard.forwarderList
        (t.bridge.switchboard.forwarderList ++ [⟨src.consumer, true⟩]) := .snoc trivial _
    exact ⟨k, ht ▸ hold.getElem?_eq_some hk⟩
  | goes i l' _ _ ht =>
    refine ⟨k, ?_⟩
    rw [ht]
    change (t.bridge.switchboard.forwarderList.modify l'.handler Forwarder.close)[l.handler]? = _
    rw [List.getElem?_modify, show t.bridge.switchboard.forwarderList[l.handler]? = _ from hk]
    split <;> rfl
  | none hs _ _ => exact ⟨k, hs ▸ hk⟩

theorem paired_run (h : t.Paired sources) (acts : List Act) :
    (t.run sources acts).Paired sources := by
  induction acts generalizing t with
  | nil => exact h
  | cons a acts ih => exact ih (paired_step h a)

theorem stands_run (h : t.Paired sources) (hl : t.Stands sources i l)
    (ha : .teardown i ∉ acts) : (t.run sources acts).Stands sources i l := by
  induction acts generalizing t with
  | nil => exact hl
  | cons a acts ih =>
    obtain ⟨hne, ha⟩ := List.ne_and_not_mem_of_not_mem_cons ha
    exact ih (paired_step h a) (stands_step h hl hne.symm) ha

theorem dead_run (h : t.Paired sources) (hl : t.Dead l) (acts : List Act) :
    (t.run sources acts).Dead l := by
  induction acts generalizing t with
  | nil => exact hl
  | cons a acts ih => exact ih (paired_step h a) (dead_step h hl a)

/-- A listener is dead if its source was torn down among other acts. -/
theorem dead_of_teardown (h : t.Paired sources) (hl : t.Stands sources i l)
    (ha : .teardown i ∈ acts) : (t.run sources acts).Dead l := by
  induction acts generalizing t with
  | nil => cases ha
  | cons a acts ih =>
    by_cases hne : a = .teardown i
    · subst hne
      exact dead_run (paired_step h _) (dead_teardown h hl) acts
    · have hmem := (List.mem_cons.1 ha).resolve_left (Ne.symm hne)
      exact ih (paired_step h a) (stands_step h hl hne) hmem

/-! ## Where a listener comes from -/

/-- A listener that is new in the table is that of a source that was started. -/
theorem stands_of_new (h : t.Paired sources) (hl : l ∈ (t.step sources a).responses.listeners)
    (hnew : l ∉ t.responses.listeners) :
    ∃ i pipeline, a = .start i pipeline ∧ (t.step sources a).Stands sources i l := by
  cases effect_step h a with
  | comes i pipeline src ha hsrc hfree ht =>
    refine ⟨i, pipeline, ha, ?_⟩
    rw [ht] at hl ⊢
    obtain rfl := List.mem_singleton.1 ((List.mem_append.1 hl).resolve_left hnew)
    exact stands_comes hfree hsrc pipeline
  | goes i l' _ _ ht =>
    rw [ht] at hl
    exact absurd (List.mem_filter.1 hl).1 hnew
  | none hs _ _ =>
    rw [responses, hs] at hl
    exact absurd hl hnew

/-- A listener in the table was put there when a source was started that was not torn down
since. -/
theorem exists_start (b : Bridge) {acts : List Act}
    (hl : l ∈ ((fresh b).run sources acts).responses.listeners) :
    ∃ before i pipeline between, acts = before ++ .start i pipeline :: between ∧
      .teardown i ∉ between ∧ l ∉ ((fresh b).run sources before).responses.listeners ∧
      ((fresh b).run sources (before ++ [.start i pipeline])).Stands sources i l := by
  induction acts using List.reverseRecOn with
  | nil => cases hl
  | append_singleton acts a ih =>
    have hpaired := paired_run (paired_fresh sources b) acts
    have hstep : (fresh b).run sources (acts ++ [a]) =
        ((fresh b).run sources acts).step sources a := run_append ..
    by_cases hold : l ∈ ((fresh b).run sources acts).responses.listeners
    · obtain ⟨before, i, pipeline, between, rfl, hbetween, hnew, hstands⟩ := ih hold
      refine ⟨before, i, pipeline, between ++ [a], by simp, ?_, hnew, hstands⟩
      have hpaired' := paired_run (paired_fresh sources b) (before ++ [.start i pipeline])
      have hnow := stands_run hpaired' hstands hbetween
      rw [← run_append, List.append_assoc, List.singleton_append] at hnow
      -- A listener that is dead would be out of the table.
      have hne : a ≠ .teardown i := by
        rintro rfl
        rw [hstep] at hl
        obtain ⟨k, hdead⟩ := dead_teardown hpaired hnow
        obtain ⟨k', hopen⟩ := (paired_step hpaired (.teardown i)).wired.leads l hl
        cases hdead.symm.trans hopen
      simpa [hbetween] using hne.symm
    · rw [hstep] at hl
      obtain ⟨i, pipeline, rfl, hstands⟩ := stands_of_new hpaired hl hold
      exact ⟨acts, i, pipeline, [], rfl, by simp, hold, hstep ▸ hstands⟩

/-- A listener that was kept was looked up. -/
theorem exists_resolve (b : Bridge) {acts : List Act}
    (hl : l ∈ ((fresh b).run sources acts).kept) :
    ∃ before owner refinement? since, acts = before ++ .resolve owner refinement? :: since ∧
      ((fresh b).run sources before).responses.resolve? owner refinement? = some l := by
  induction acts using List.reverseRecOn with
  | nil => cases hl
  | append_singleton acts a ih =>
    have hstep : (fresh b).run sources (acts ++ [a]) =
        ((fresh b).run sources acts).step sources a := run_append ..
    have hcases : l ∈ ((fresh b).run sources acts).kept ∨ ∃ owner refinement?,
        a = .resolve owner refinement? ∧
        ((fresh b).run sources acts).responses.resolve? owner refinement? = some l := by
      rw [hstep] at hl
      cases a with
      | start i pipeline =>
        left
        simp only [step] at hl
        split at hl
        · exact hl
        · split at hl <;> exact hl
      | teardown i =>
        left
        simp only [step] at hl
        split at hl <;> exact hl
      | resolve owner refinement? =>
        refine (List.mem_append.1 hl).imp_right fun hfound => ?_
        exact ⟨owner, refinement?, rfl, Option.mem_toList.1 hfound⟩
      | deliver j event =>
        left
        simp only [step] at hl
        split at hl <;> exact hl
    obtain hold | ⟨owner, refinement?, rfl, hfound⟩ := hcases
    · obtain ⟨before, owner, refinement?, since, rfl, hfound⟩ := ih hold
      exact ⟨before, owner, refinement?, since ++ [a], by simp, hfound⟩
    · exact ⟨acts, owner, refinement?, [], rfl, hfound⟩

/-! ## Deliveries -/

/-- An event for a source that stands is given to its consumer. -/
theorem Stands.forward {src : ResponseSource} (h : t.Stands sources i l)
    (hsrc : sources[i]? = some src) (event : Event) :
    t.bridge.forward l.handler event = t.bridge.hand src.consumer event := by
  obtain ⟨src', hsrc', -, hopen⟩ := h.source
  cases hsrc'.symm.trans hsrc
  rw [Bridge.forward, hopen]
  rfl

/-- An event for a dead listener goes nowhere. -/
theorem Dead.forward (h : t.Dead l) (event : Event) :
    t.bridge.forward l.handler event = (t.bridge, true) := by
  obtain ⟨k, hk⟩ := h
  rw [Bridge.forward, hk]
  rfl

/-- To be given an event makes a difference: it is taken, or the consumer fails. -/
theorem hand_ne (b : Bridge) (k : Consumer) (event : Event) : b.hand k event ≠ (b, true) := by
  intro h
  unfold Bridge.hand at h
  split at h
  · cases h
  · have hevents := congrArg (fun r => r.1.events.length) h
    simp at hevents

/-- How a listener came to be kept: the source of a number was started and registered it, and
before that source was torn down the listener was looked up. What was done since is left. -/
structure KeptSince (sources : List ResponseSource) (b : Bridge) (acts : List Act)
    (l : Listener Nat) (i : Nat) (src : ResponseSource) (since : List Act) : Prop where
  source : sources[i]? = some src
  history : ∃ before pipeline between owner refinement?,
    acts = (before ++ .start i pipeline :: between) ++ .resolve owner refinement? :: since ∧
    l ∉ ((fresh b).run sources before).responses.listeners ∧
    l ∈ ((fresh b).run sources (before ++ [.start i pipeline])).responses.listeners ∧
    .teardown i ∉ between ∧
    ((fresh b).run sources (before ++ .start i pipeline :: between)).responses.resolve?
      owner refinement? = some l

/-- **A kept listener hands an event to the consumer of the source that registered it**, once, just
when that source was not torn down since it was looked up. Otherwise nothing happens, whoever was
started again under its key. -/
theorem forward_of_kept (sources : List ResponseSource) (b : Bridge) (acts : List Act)
    (l : Listener Nat) (hl : l ∈ ((fresh b).run sources acts).kept) :
    ∃ i src since, KeptSince sources b acts l i src since ∧ ∀ event,
      (((fresh b).run sources acts).bridge.forward l.handler event =
          ((fresh b).run sources acts).bridge.hand src.consumer event ↔ .teardown i ∉ since) ∧
        (.teardown i ∈ since →
          ((fresh b).run sources acts).bridge.forward l.handler event =
            (((fresh b).run sources acts).bridge, true)) := by
  obtain ⟨start, owner, refinement?, since, rfl, hfound⟩ := exists_resolve b hl
  obtain ⟨before, i, pipeline, between, rfl, hbetween, hnew, hstands⟩ :=
    exists_start b (Registry.mem_of_resolve? hfound)
  have hpaired := paired_run (paired_fresh sources b) (before ++ [.start i pipeline])
  obtain ⟨src, hsrc, -⟩ := hstands.source
  refine ⟨i, src, since, ⟨hsrc, before, pipeline, between, owner, refinement?, rfl, hnew,
    hstands.mem, hbetween, hfound⟩, fun event => ?_⟩
  have hlater : (before ++ .start i pipeline :: between) ++ .resolve owner refinement? :: since =
      (before ++ [.start i pipeline]) ++ (between ++ .resolve owner refinement? :: since) := by
    simp
  rw [hlater, run_append]
  by_cases hsince : .teardown i ∈ since
  · have hacts : .teardown i ∈ between ++ .resolve owner refinement? :: since := by simp [hsince]
    rw [(dead_of_teardown hpaired hstands hacts).forward]
    exact ⟨⟨fun h => absurd h.symm (hand_ne _ _ _), fun h => absurd hsince h⟩, fun _ => rfl⟩
  · have hacts : .teardown i ∉ between ++ .resolve owner refinement? :: since := by
      simp [hbetween, hsince]
    have hlive := stands_run hpaired hstands hacts
    exact ⟨⟨fun _ => hsince, fun _ => hlive.forward hsrc event⟩, fun h => absurd h hsince⟩

/-- A bridge at which nothing has happened. -/
def still : Bridge :=
  { limit := 64
    timeout := 1
    now := 0
    switchboard := .empty
    pool := .idle 1
    gates := .empty
    inbound := []
    sends := []
    answers := []
    files := .empty
    meter := .zero
    events := []
    requests := [] }

/-- Two sources of one key. -/
def rivals : List ResponseSource :=
  [⟨⟨"payments", none, false⟩, .steady "till"⟩, ⟨⟨"payments", none, false⟩, .steady "ledger"⟩]

/-- The listener of the first source is kept before the second one takes its place, and then that
of the second. -/
def succession : List Act :=
  [.start 0 "shop", .resolve "payments" none, .teardown 0, .start 1 "shop",
    .resolve "payments" (some "200")]

/-- The first listener is dead, although its key is taken again; the second one is not. -/
theorem forward_of_kept_succession :
    (∃ l ∈ ((fresh still).run rivals succession).kept, l.handler = 0 ∧
      ∃ i src since, KeptSince rivals still succession l i src since ∧ ∀ event,
        (((fresh still).run rivals succession).bridge.forward l.handler event =
            ((fresh still).run rivals succession).bridge.hand src.consumer event ↔
              .teardown i ∉ since) ∧
          (.teardown i ∈ since →
            ((fresh still).run rivals succession).bridge.forward l.handler event =
              (((fresh still).run rivals succession).bridge, true))) ∧
      (((fresh still).run rivals succession).bridge.forward 0 ⟨"late", .empty⟩).1.events.map (·.1) =
        [] ∧
      (((fresh still).run rivals succession).bridge.forward 1 ⟨"ok", .empty⟩).1.events.map (·.1) =
        ["ledger"] := by
  have hkept : ⟨.plain "payments", "shop", false, 0⟩ ∈
      ((fresh still).run rivals succession).kept := List.mem_cons_self
  refine ⟨⟨_, hkept, rfl, forward_of_kept rivals still succession _ hkept⟩, ?_, ?_⟩
  · decide +kernel
  · decide +kernel

end Keeping

end Correlator
