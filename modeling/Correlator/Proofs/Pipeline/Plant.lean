import Correlator.Proofs.Pipeline.Rollback
import Correlator.Proofs.Switchboard.Ledger

/-!
# Pipelines over one switchboard

Pipelines that share a switchboard are started and stopped in any order. The tables are always the
union of what the running ones hold.

* `Plant`: pipelines with the switchboard that they share; `Plant.run`: orders carried out one
  after another.
* `Pipeline.held`: what a pipeline holds; it is nothing unless the pipeline is running.
* `Pipeline.holds_start`, `Pipeline.holds_shutdown`: a pipeline started or stopped while others
  hold what they hold.
* **`Plant.tables_eq_held`**: after any orders each table has one entry for each source of a
  running pipeline, on behalf of that pipeline, and no others; the exchange under a source's id is
  the one at its path, and it is open.

Entries are taken out by key and owner, and pipelines may have one name. So it is not the owner
that keeps a pipeline from taking out what another one holds, but that no key is held twice.
-/

namespace Correlator

namespace Pipeline

/-- The parts of a running pipeline, each with its name. -/
def held (p : Pipeline) : List (String × Part) :=
  if p.running then p.elements.map fun e => (p.name, e.part) else []

variable {s t : Switchboard} {name : String} {others : List (String × Part)}

/-- Elements that were started are held besides the others. -/
theorem holds_startFrom {started rest : List Element} (h : t.Holds others)
    (hok : (startFrom name t started rest).2.2 = .ok ()) :
    (startFrom name t started rest).1.Holds (rest.map (fun e => (name, e.part)) ++ others) ∧
      (startFrom name t started rest).2.1 = started.reverse ++ rest.map Element.busy := by
  induction rest generalizing t started others with
  | nil => exact ⟨h, by simp [startFrom]⟩
  | cons e rest ih =>
    unfold startFrom at hok ⊢
    split at hok
    · rename_i u hu
      obtain ⟨hholds, helements⟩ := ih (h.plug hu) hok
      refine ⟨hholds.perm List.perm_middle, ?_⟩
      rw [helements]
      simp
    · cases hok

/-- Elements that were stopped are held no longer. -/
theorem holds_stopAll {es : List Element} (hes : ∀ e ∈ es, e.active = true)
    (h : t.Holds (es.map (fun e => (name, e.part)) ++ others)) :
    (stopAll name t es).Holds others := by
  induction es generalizing t with
  | nil => exact h
  | cons e es ih =>
    obtain ⟨he, hes⟩ := List.forall_mem_cons.1 hes
    refine ih hes ?_
    simp only [Element.stop, he, if_true]
    exact h.unplug

/-- A pipeline that is started holds its parts besides the others, or nothing if it fails. -/
theorem holds_start (p : Pipeline) (h : s.Holds (p.held ++ others)) :
    (p.start s).2.1.Holds ((p.start s).1.held ++ others) := by
  cases hp : p.running with
  | true => simpa [start, hp] using h
  | false =>
    have hothers : s.Holds others := by simpa [held, hp] using h
    obtain ⟨hname, helements, hrunning, hresult⟩ := start_eq hp s
    unfold held
    rw [hname, helements, hrunning, hresult]
    rcases hr : (startFrom p.name s [] p.elements).2.2 with fault | _
    · exact hothers.restored (restored_startFrom (.refl s) hr)
    · obtain ⟨hholds, hbusy⟩ := holds_startFrom hothers hr
      rw [hbusy]
      simpa [Except.isOk, Except.toBool, Element.busy, Function.comp_def] using hholds

/-- A pipeline that is stopped holds nothing, and the others hold what they held. -/
theorem holds_shutdown (p : Pipeline) (h : s.Holds (p.held ++ others)) :
    (p.shutdown s).2.Holds ((p.shutdown s).1.held ++ others) := by
  unfold shutdown
  split
  · rename_i hp
    refine holds_stopAll (fun e he => (p.active_eq e (List.mem_reverse.1 he)).trans hp) (h.perm ?_)
    rw [held, if_pos hp]
    exact ((List.reverse_perm _).symm.map _).append_right _
  · exact h

end Pipeline

/-! ## Plants -/

/-- Pipelines that share a switchboard. -/
structure Plant where
  pipelines : List Pipeline
  switchboard : Switchboard

namespace Plant

/-- What may be asked of a pipeline, which is known by its place. -/
inductive Order
  | start (i : Nat)
  | shutdown (i : Nat)
  deriving DecidableEq, Repr

/-- An order carried out. -/
def carryOut (w : Plant) : Order → Plant
  | .start i =>
    match w.pipelines[i]? with
    | some p => ⟨w.pipelines.set i (p.start w.switchboard).1, (p.start w.switchboard).2.1⟩
    | none => w
  | .shutdown i =>
    match w.pipelines[i]? with
    | some p => ⟨w.pipelines.set i (p.shutdown w.switchboard).1, (p.shutdown w.switchboard).2⟩
    | none => w

/-- Orders carried out one after another. -/
def run (w : Plant) (orders : List Order) : Plant := orders.foldl carryOut w

/-- The parts of the running pipelines. -/
def held (w : Plant) : List (String × Part) := w.pipelines.flatMap Pipeline.held

/-- The request sources of the running pipelines. -/
def requestSources (w : Plant) : List (String × RequestSourceConfig × Consumer) :=
  w.held.filterMap Switchboard.requestOrigin?

/-- The response sources of the running pipelines. -/
def responseSources (w : Plant) : List (String × ResponseSourceConfig × Consumer) :=
  w.held.filterMap Switchboard.responseOrigin?

/-- What the pipelines hold, with one of them put first. -/
theorem exists_others {ps : List Pipeline} {i : Nat} {p : Pipeline} (h : ps[i]? = some p) :
    ∃ others, (ps.flatMap Pipeline.held).Perm (p.held ++ others) ∧
      ∀ q, ((ps.set i q).flatMap Pipeline.held).Perm (q.held ++ others) := by
  obtain ⟨hi, rfl⟩ := List.getElem?_eq_some_iff.1 h
  have hset : ∀ q, ((ps.set i q).flatMap Pipeline.held).Perm
      (q.held ++ (ps.take i ++ ps.drop (i + 1)).flatMap Pipeline.held) := by
    intro q
    rw [List.set_eq_take_append_cons_drop, if_pos hi]
    simp only [List.flatMap_append, List.flatMap_cons]
    exact List.perm_append_comm_assoc ..
  refine ⟨_, ?_, hset⟩
  have hself := hset ps[i]
  rwa [List.set_getElem_self] at hself

theorem holds_carryOut {w : Plant} (h : w.switchboard.Holds w.held) (order : Order) :
    (w.carryOut order).switchboard.Holds (w.carryOut order).held := by
  cases order with
  | start i =>
    simp only [carryOut]
    split
    · rename_i p hp
      obtain ⟨others, hall, hset⟩ := exists_others hp
      exact (p.holds_start (h.perm hall)).perm (hset _).symm
    · exact h
  | shutdown i =>
    simp only [carryOut]
    split
    · rename_i p hp
      obtain ⟨others, hall, hset⟩ := exists_others hp
      exact (p.holds_shutdown (h.perm hall)).perm (hset _).symm
    · exact h

theorem holds_run {w : Plant} (h : w.switchboard.Holds w.held) (orders : List Order) :
    (w.run orders).switchboard.Holds (w.run orders).held := by
  induction orders generalizing w with
  | nil => exact h
  | cons order orders ih => exact ih (holds_carryOut h order)

/-- Before any order, nothing is held. -/
theorem holds_fresh {ps : List Pipeline} (hps : ∀ p ∈ ps, p.running = false) :
    Switchboard.empty.Holds (Plant.held ⟨ps, .empty⟩) := by
  have hheld : Plant.held ⟨ps, .empty⟩ = [] :=
    List.flatMap_eq_nil_iff.2 fun p hp => by simp [Pipeline.held, hps p hp]
  rw [hheld]
  exact .empty

/-- **The tables are what the running pipelines hold.** Pipelines that are not running share an
empty switchboard; whatever orders are carried out after that, the tables are the union of what
the sources of running pipelines hold, and so no two of these sources have one key, id or path. -/
theorem tables_eq_held {ps : List Pipeline} (hps : ∀ p ∈ ps, p.running = false)
    (orders : List Order) :
    ((Plant.mk ps .empty).run orders).switchboard.Matches
      ((Plant.mk ps .empty).run orders).requestSources
      ((Plant.mk ps .empty).run orders).responseSources :=
  (holds_run (holds_fresh hps) orders).matches_parts

/-- Two pipelines of one name, which ask for one path. -/
def twins : List Pipeline :=
  [⟨"shop",
      [⟨.requestSource ⟨"orders", "/shop", []⟩ (.steady "desk"), false⟩,
        ⟨.responseSource ⟨"payments", some 200, false⟩ (.steady "till"), false⟩],
      false, by simp⟩,
    ⟨"shop",
      [⟨.responseSource ⟨"payments", none, false⟩ (.steady "till"), false⟩,
        ⟨.requestSource ⟨"refunds", "/shop", []⟩ (.steady "desk"), false⟩],
      false, by simp⟩]

/-- The second of them cannot be started while the first is running. When it was tried in vain the
first still holds all that it held; once that was stopped the second holds its own. -/
theorem tables_eq_held_twins :
    ((Plant.mk twins .empty).run [.start 0, .start 1]).switchboard.Matches
        [("shop", ⟨"orders", "/shop", []⟩, .steady "desk")]
        [("shop", ⟨"payments", some 200, false⟩, .steady "till")] ∧
      ((Plant.mk twins .empty).run [.start 0, .start 1, .shutdown 0, .start 1]).switchboard.Matches
        [("shop", ⟨"refunds", "/shop", []⟩, .steady "desk")]
        [("shop", ⟨"payments", none, false⟩, .steady "till")] := by
  have hps : ∀ p ∈ twins, p.running = false := by simp [twins]
  exact ⟨tables_eq_held hps [.start 0, .start 1],
    tables_eq_held hps [.start 0, .start 1, .shutdown 0, .start 1]⟩

end Plant

end Correlator
