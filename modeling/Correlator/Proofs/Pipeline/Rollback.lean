import Correlator.Proofs.Switchboard.Restored

/-!
# Rollback

A pipeline that cannot be started leaves nothing behind: neither in the tables that it shares with
others, nor in itself.

* `Pipeline.anew_of_ofConfig`, `Pipeline.anew_start`, `Pipeline.anew_shutdown`: a pipeline as it was
  when it was built is the same whatever was done with it since.
* `Pipeline.restored_startFrom`: the switchboard after elements could not be started, given what it
  would be if those before them were stopped.
* **`Pipeline.start_error`**: after a start that failed the tables are as they were, whatever was
  open before is as it was, whatever was made is closed, and the pipeline is as it was built.

No assumption is made on the tables. They may hold listeners and routes of other pipelines of the
same name, or such as no pipeline has put there: what is taken out again was just added under a key
that was free, so nothing else can be meant.
-/

namespace Correlator.Pipeline

theorem anew_eq_self {p : Pipeline} (hp : p.running = false) : p.anew = p := by
  have he : p.elements.map Element.idle = p.elements :=
    (List.map_congr_left fun e h => Element.idle_eq_self ((p.active_eq e h).trans hp)).trans
      (List.map_id _)
  exact Pipeline.ext rfl he hp.symm

/-- A pipeline is built as it is found after it was stopped. -/
theorem anew_of_ofConfig {c : PipelineConfig} {consumer : Nat → Consumer} {direct : Nat → Bool}
    {p : Pipeline} (h : ofConfig c consumer direct = .ok p) : p.anew = p := by
  refine anew_eq_self ?_
  unfold ofConfig at h
  split at h
  · cases h
    rfl
  · cases h

@[simp] theorem anew_shutdown (p : Pipeline) (s : Switchboard) :
    (p.shutdown s).1.anew = p.anew := by
  unfold shutdown
  split
  · simp [anew, Function.comp_def]
  · rfl

/-- A pipeline that was stopped is not running. -/
theorem running_shutdown (p : Pipeline) (s : Switchboard) : (p.shutdown s).1.running = false := by
  unfold shutdown
  split
  · rfl
  · rename_i hp
    exact Bool.eq_false_iff.2 hp

/-! ## What starting elements comes to -/

variable {name : String} {s t : Switchboard} {started rest : List Element} {fault : Fault}

/-- If elements cannot be started, then the switchboard is what it would be if those before them
were stopped at once. -/
theorem restored_startFrom (hs : s.Restored (stopAll name t started))
    (h : (startFrom name t started rest).2.2 = .error fault) :
    s.Restored (startFrom name t started rest).1 := by
  -- on the elements that are still to be started; each one that comes may go again at once
  induction rest generalizing t started with
  | nil => cases h
  | cons e rest ih =>
    unfold startFrom at h ⊢
    split at h
    · rename_i u hu
      refine ih ?_ h
      exact hs.trans ((Element.restored_unplug_of_plug hu).stopAll name started)
    · rename_i u fault' hu
      exact hs.trans ((Element.restored_of_plug_error hu).stopAll name started)

/-- If elements cannot be started, then none of them is active. -/
theorem elements_startFrom (hr : ∀ e ∈ rest, e.active = false)
    (h : (startFrom name t started rest).2.2 = .error fault) :
    (startFrom name t started rest).2.1 = (started.map Element.idle).reverse ++ rest := by
  induction rest generalizing t started with
  | nil => cases h
  | cons e rest ih =>
    obtain ⟨he, hr⟩ := List.forall_mem_cons.1 hr
    unfold startFrom at h ⊢
    split at h
    · rw [ih hr h]
      simp [Element.idle_eq_self he]
    · rfl

/-- Whether elements are active is all that a start changes in them. -/
theorem idle_startFrom : (startFrom name t started rest).2.1.map Element.idle =
    started.reverse.map Element.idle ++ rest.map Element.idle := by
  induction rest generalizing t started with
  | nil => simp [startFrom]
  | cons e rest ih =>
    unfold startFrom
    split
    · rw [ih]
      simp
    · simp [Function.comp_def]

/-! ## A start that fails -/

/-- What a pipeline that is not running comes to when it is started. -/
theorem start_eq {p : Pipeline} (hp : p.running = false) (s : Switchboard) :
    (p.start s).1.name = p.name ∧
      (p.start s).1.elements = (startFrom p.name s [] p.elements).2.1 ∧
      (p.start s).1.running = (startFrom p.name s [] p.elements).2.2.isOk ∧
      (p.start s).2 =
        ((startFrom p.name s [] p.elements).1, (startFrom p.name s [] p.elements).2.2) := by
  unfold start
  rw [dif_neg (by simp [hp])]
  exact ⟨rfl, rfl, rfl, rfl⟩

@[simp] theorem anew_start (p : Pipeline) (s : Switchboard) : (p.start s).1.anew = p.anew := by
  cases hp : p.running with
  | true => simp [start, hp]
  | false =>
    obtain ⟨hname, helements, -, -⟩ := start_eq hp s
    refine Pipeline.ext hname ?_ rfl
    show (p.start s).1.elements.map Element.idle = p.elements.map Element.idle
    rw [helements, idle_startFrom]
    rfl

theorem running_start_of_error {p : Pipeline} (hp : p.running = false)
    (h : (p.start s).2.2 = .error fault) : (p.start s).1.running = false := by
  obtain ⟨-, -, hrunning, hresult⟩ := start_eq hp s
  rw [hresult] at h
  rw [hrunning, h]
  rfl

/-- **A start that fails is undone.** The tables are as they were. Every forwarder and exchange
there was is as it was, so none was closed; every one that was made is closed. The pipeline is not
running, and it is as it was built, so that a later start is a first start. -/
theorem start_error {p : Pipeline} (hp : p.running = false)
    (h : (p.start s).2.2 = .error fault) :
    s.Restored (p.start s).2.1 ∧ (p.start s).1.running = false ∧
      ∀ u, (p.start s).1.start u = p.anew.start u := by
  have hidle : ∀ e ∈ p.elements, e.active = false := fun e he => (p.active_eq e he).trans hp
  have hrun := running_start_of_error hp h
  obtain ⟨hname, helements, -, hresult⟩ := start_eq hp s
  rw [hresult] at h ⊢
  refine ⟨restored_startFrom (.refl s) h, hrun, fun u => ?_⟩
  rw [anew_eq_self hp]
  congr 1
  rw [elements_startFrom hidle h] at helements
  exact Pipeline.ext hname helements (hrun.trans hp.symm)

/-- A pipeline whose last source asks for a key that another pipeline of the same name has. -/
def shop : Pipeline :=
  ⟨"shop",
    [⟨.requestSource ⟨"orders", "/shop", []⟩ (.steady "desk"), false⟩,
      ⟨.responseSource ⟨"payments", none, false⟩ (.steady "till"), false⟩],
    false, by simp⟩

/-- The tables with that key. -/
def taken : Switchboard :=
  { Switchboard.empty with
    responses := ⟨[⟨.plain "payments", "shop", false, 0⟩]⟩
    forwarderList := [⟨.steady "safe", true⟩] }

/-- The source that came first is gone again, and the other pipeline has its key still. -/
theorem start_error_shop :
    (shop.start taken).2.2 = .error (.duplicate (.plain "payments")) ∧
      taken.Restored (shop.start taken).2.1 ∧ (shop.start taken).1.running = false ∧
      ∀ u, (shop.start taken).1.start u = shop.anew.start u := by
  have h : (shop.start taken).2.2 = .error (.duplicate (.plain "payments")) := by rfl
  exact ⟨h, start_error rfl h⟩

end Correlator.Pipeline
