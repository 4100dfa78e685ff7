import Correlator.Client
import Correlator.Proofs.Bridge.Deadlines
import Correlator.Proofs.Config.Accepted
import Correlator.Service

/-!
# Numbers that are too large

Three numbers of a configuration meet a limit: the slots that a pool can have, and twice the end of
the clock. No document is refused for any of them.

* `Clock.after?_eq_some_iff`, `Clock.afterOrFar_le_last`: what the clock can hold.
* `Pool.new?_eq_some_iff`, `Bridge.new?_eq_none_iff`: the slots that there can be.
* `Config.problems_withNumbers`: of its numbers a document is accepted for the slots alone, which
  must not be none.
* `Service.launch_poolSize_iff`: an accepted document breaks the launch just when its pool is too
  large.
* `Config.Fits`: the pool and the clock can hold what is configured.
* **`Config.unbroken_iff_fits`**: a bridge is built, and the deadlines of its requests can be told
  for as long as it runs, just when the numbers fit; replies have a deadline at any rate.
* `Config.breaks_of_accepted`: there are accepted documents whose numbers do not fit.
-/

namespace Correlator

/-! ## Limits -/

namespace Clock

variable {now seconds t : Nat}

theorem after?_eq_some_iff : after? now seconds = some t ↔ t = now + seconds ∧ t ≤ last := by
  unfold after?
  split
  · rename_i hholds
    exact ⟨fun h => by cases h; exact ⟨rfl, hholds⟩, fun h => by rw [h.1]⟩
  · rename_i hholds
    exact ⟨nofun, fun ⟨ht, hlast⟩ => absurd (ht ▸ hlast) hholds⟩

/-- The clock can hold the time that is taken if it is not about to end. -/
theorem afterOrFar_le_last (h : now + far ≤ last) : afterOrFar now seconds ≤ last := by
  unfold afterOrFar
  cases ht : after? now seconds with
  | none => exact h
  | some t => exact (after?_eq_some_iff.1 ht).2

end Clock

theorem Client.deadline?_eq_some_iff {c : ClientConfig} {now deadline : Nat} :
    deadline? c now = some deadline ↔
      deadline = now + c.requestTimeout ∧ deadline ≤ Clock.last :=
  Clock.after?_eq_some_iff

theorem Pool.new?_eq_some_iff {α : Type} {n : Nat} {p : Pool α} :
    new? n = some p ↔ n ≤ maxSize ∧ p = idle n := by
  unfold new?
  split
  · rename_i hsize
    simp [hsize, eq_comm]
  · rename_i hsize
    simp [hsize]

namespace Bridge

variable {c : Config} {files : FileTree} {b : Bridge}

theorem new?_eq_none_iff : new? c files = none ↔ Pool.maxSize < c.workers.poolSize := by
  unfold new?
  rw [Option.map_eq_none_iff, Option.eq_none_iff_forall_ne_some]
  simp [Pool.new?_eq_some_iff]

/-- A pool has the slots that are asked for, if any are. -/
theorem size_new (h : new? c files = some b) (hslots : c.workers.poolSize ≠ 0) :
    b.pool.size = c.workers.poolSize := by
  obtain ⟨pool, hpool, rfl⟩ := Option.map_eq_some_iff.1 h
  obtain ⟨-, rfl⟩ := Pool.new?_eq_some_iff.1 hpool
  exact Nat.max_eq_left (Nat.one_le_iff_ne_zero.2 hslots)

theorem now_new (h : new? c files = some b) : b.now = 0 := by
  obtain ⟨pool, -, rfl⟩ := Option.map_eq_some_iff.1 h
  rfl

end Bridge

/-! ## Acceptance -/

namespace Config

variable {c : Config} {timeout : Nat} {workers : WorkerConfig} {client : ClientConfig}

/-- The configuration with other numbers. -/
def withNumbers (c : Config) (responseTimeout : Nat) (workers : WorkerConfig)
    (client : ClientConfig) : Config :=
  { c with listener := { c.listener with responseTimeout }, workers, client }

/-- **A document is accepted with any numbers** but a pool of no slots. -/
theorem problems_withNumbers (h : c.problems = []) :
    (c.withNumbers timeout workers client).problems = [] ↔ workers.poolSize ≠ 0 := by
  obtain ⟨-, hrest⟩ := problems_eq_nil_iff.1 h
  rw [problems_eq_nil_iff]
  exact and_iff_left hrest

end Config

/-- **An accepted document breaks the launch** just when there can be no pool of its size. -/
theorem Service.launch_poolSize_iff {c : Config} {bs : Octets} {canListen : String → Bool}
    (hc : Config.ofBytes bs = .ok c) :
    launch (some bs) canListen = .error .poolSize ↔ Pool.maxSize < c.workers.poolSize := by
  have hnone : Bridge.new? c .empty = none ↔ Pool.maxSize < c.workers.poolSize :=
    Bridge.new?_eq_none_iff
  rw [← hnone]
  unfold launch
  simp only [Option.elim_some, hc]
  cases Bridge.new? c .empty with
  | none => simp
  | some b =>
    refine iff_of_false (fun h => ?_) nofun
    dsimp only at h
    split at h
    · cases h
    · split at h <;> cases h

/-! ## Numbers that fit -/

/-- Whoever waits at a bridge waits since some moment that was, for the time that requests are
given. -/
theorem Bridge.exists_since {c : Config} {files : FileTree} {b₀ b : Bridge} {n deadline : Nat}
    {call : Call} (hnew : new? c files = some b₀) (hcourse : b₀.Course b)
    (hcall : b.call? n = some call) (hwaits : call.phase = .waiting deadline) :
    ∃ t ≤ b.now, deadline = Clock.afterOrFar t c.listener.responseTimeout := by
  obtain ⟨hsteady₀, htimely₀⟩ := steady_new hnew
  have hsince := since_course hsteady₀ htimely₀ hcourse
  obtain ⟨x, hx, hmem⟩ := Steady.mem_of_call? hcall
  cases hsince.steady.seated x hx call hmem with
  | dispatching hphase => cases hphase.symm.trans hwaits
  | answered r hphase => cases hphase.symm.trans hwaits
  | waiting t ht hphase =>
    cases hphase.symm.trans hwaits
    exact ⟨t, ht, by rw [hsince.timeout, timeout_new hnew]⟩

namespace Config

variable {c : Config}

/-- The pool can be as large as it is asked for, and for some time the clock can hold the end of an
exchange. -/
structure Fits (c : Config) (uptime : Nat) : Prop where
  slots : c.workers.poolSize ≤ Pool.maxSize
  clock : uptime + c.client.requestTimeout ≤ Clock.last

/-- **A bridge goes unbroken just when its numbers fit.** The bridge of an accepted document is
built, and at each moment of its course up to some time the deadline of a request that goes out can
be told, just when the numbers of the document fit. The bridge has the slots that are asked for.
Each request that waits for its reply has a deadline that the clock can hold, however long requests
are given, unless the clock is about to end. Nobody looks at the numbers before: the document is
accepted with any others as well, but for a pool of no slots. -/
theorem unbroken_iff_fits (haccepted : c.problems = []) (files : FileTree) (uptime : Nat) :
    ((∃ b₀, Bridge.new? c files = some b₀ ∧ ∀ b, b₀.Course b → b.now ≤ uptime →
        ∃ deadline, Client.deadline? c.client b.now = some deadline) ↔ c.Fits uptime) ∧
      (∀ b₀, Bridge.new? c files = some b₀ → b₀.pool.size = c.workers.poolSize ∧
        ∀ b n call deadline, b₀.Course b → b.call? n = some call →
          call.phase = .waiting deadline →
            (∃ t ≤ b.now, deadline = Clock.afterOrFar t c.listener.responseTimeout) ∧
              (b.now + Clock.far ≤ Clock.last → deadline ≤ Clock.last)) ∧
      ∀ timeout workers client,
        (c.withNumbers timeout workers client).problems = [] ↔ workers.poolSize ≠ 0 := by
  have hslots : c.workers.poolSize ≠ 0 := (problems_eq_nil_iff.1 haccepted).1
  refine ⟨⟨?_, fun hfits => ?_⟩, fun b₀ hnew => ⟨Bridge.size_new hnew hslots, ?_⟩,
    fun _ _ _ => problems_withNumbers haccepted⟩
  · rintro ⟨b₀, hnew, htold⟩
    have hsome : ¬ Pool.maxSize < c.workers.poolSize := fun hlarge => by
      cases hnew.symm.trans (Bridge.new?_eq_none_iff.2 hlarge)
    -- the bridge is left alone for the whole time
    have hnow : (b₀.advance uptime).now = uptime := by
      show b₀.now + uptime = uptime
      rw [Bridge.now_new hnew, Nat.zero_add]
    obtain ⟨deadline, hdeadline⟩ := htold _ (.single (.advance uptime)) (Nat.le_of_eq hnow)
    obtain ⟨rfl, hlast⟩ := Client.deadline?_eq_some_iff.1 hdeadline
    exact ⟨Nat.not_lt.1 hsome, hnow ▸ hlast⟩
  · have hnew : Bridge.new? c files ≠ none := fun hnone =>
      Nat.not_lt.2 hfits.slots (Bridge.new?_eq_none_iff.1 hnone)
    obtain ⟨b₀, hnew⟩ := Option.ne_none_iff_exists'.1 hnew
    refine ⟨b₀, hnew, fun b _ hb => ⟨_, Client.deadline?_eq_some_iff.2 ⟨rfl, ?_⟩⟩⟩
    exact Nat.le_trans (Nat.add_le_add_right hb _) hfits.clock
  · intro b n call deadline hcourse hcall hwaits
    obtain ⟨t, ht, rfl⟩ := Bridge.exists_since hnew hcourse hcall hwaits
    exact ⟨⟨t, ht, rfl⟩, fun hclock =>
      Clock.afterOrFar_le_last (Nat.le_trans (Nat.add_le_add_right ht _) hclock)⟩

/-- A pool of more slots than there can be. -/
def vast : Config := { workers := { poolSize := Nat.pow 2 61 } }

/-- The greatest number of 64 bits for the time of an exchange, and for that of a reply. -/
def patient : Config :=
  { listener := { responseTimeout := Nat.pow 2 64 - 1 }
    client := { requestTimeout := Nat.pow 2 64 - 1 } }

/-- With the numbers that nobody has changed a bridge goes unbroken for a thousand years. -/
theorem unbroken_iff_fits_default :
    (default : Config).problems = [] ∧ ∃ b₀, Bridge.new? default .empty = some b₀ ∧
      b₀.pool.size = 5 ∧ ∀ b, b₀.Course b → b.now ≤ 1000 * 365 * 86400 →
        ∃ deadline, Client.deadline? (default : Config).client b.now = some deadline := by
  have haccepted : (default : Config).problems = [] := by decide +kernel
  have hfits : (default : Config).Fits (1000 * 365 * 86400) := ⟨by decide, by decide⟩
  obtain ⟨hunbroken, hbuilt, -⟩ :=
    unbroken_iff_fits haccepted .empty (1000 * 365 * 86400)
  obtain ⟨b₀, hnew, htold⟩ := hunbroken.2 hfits
  exact ⟨haccepted, b₀, hnew, (hbuilt b₀ hnew).1, htold⟩

/-- **There are accepted documents whose numbers do not fit.** There is no bridge with the pool of
the one, and no exchange of the other has a deadline. -/
theorem breaks_of_accepted :
    vast.problems = [] ∧ Bridge.new? vast .empty = none ∧ patient.problems = [] ∧
      (Bridge.new? patient .empty).isSome ∧ Client.deadline? patient.client 0 = none := by
  refine ⟨by decide +kernel, ?_, by decide +kernel, rfl, by decide⟩
  exact Bridge.new?_eq_none_iff.2 (by decide)

end Config

end Correlator
