import Mathlib.Data.List.Nodup
import Correlator.Proofs.Pool.Jobs

/-!
# Shifts

Whatever happens to a pool of jobs, in whatever order, each job is in one place at a time, and the
slots are accounted for.

* `Shift.Move`, `Shift.run`: what can happen to a shift, and a run of such moves.
* `Shift.Sequel`: what stays so while a shift goes on.
* `Shift.Stands`: where a job stands; `Shift.Kept.stands_iff`: it stands in one place.
* `Shift.calm`: a shift as if no job failed; `Shift.calm_run`: it comes to the same.
* `Shift.Accounted`, `Shift.ClosedFor`: what holds after every run, and after a pool was closed.
* `Shift.accounted_of_run`: it does.
-/

namespace Correlator

/-- A job like this one that does not fail. -/
def Job.calm (j : Job) : Job := { j with fails := false }

/-- The same end as if the job had not failed. -/
def JobEnd.calm : JobEnd → JobEnd
  | .failed => .done
  | how => how

theorem Job.ending_calm (j : Job) : j.calm.ending = j.ending.calm := by
  unfold Job.ending
  cases j.fails <;> rfl

namespace Shift

variable {s t : Shift} {n : Nat}

/-! ## Moves -/

/-- What can happen to a shift. -/
inductive Move
  | submit (job : Job)
  | release (gate : String) (n : Nat)
  | close
  deriving DecidableEq, Repr

/-- A shift after a move. -/
def step (s : Shift) : Move → Shift
  | .submit job => s.submit job
  | .release gate n => s.release gate n
  | .close => s.close

/-- A shift after some moves, one after another. -/
def run (s : Shift) (moves : List Move) : Shift := moves.foldl step s

theorem kept_step (h : s.Kept []) (m : Move) : (s.step m).Kept [] := by
  cases m with
  | submit job => exact kept_submit h job
  | release gate n => exact kept_release h gate n
  | close => exact kept_close h

theorem kept_run (h : s.Kept []) (moves : List Move) : (s.run moves).Kept [] := by
  induction moves generalizing s with
  | nil => exact h
  | cons m moves ih => exact ih (kept_step h m)

/-! ## What stays so -/

/-- `t` comes after `s`: the jobs stay, and so does what has begun and what has ended. A pool keeps
its size, and once it is closed it stays closed. -/
structure Sequel (s t : Shift) : Prop where
  jobs : s.jobs <+: t.jobs
  started : s.started <+: t.started
  finished : s.finished <+: t.finished
  size : t.pool.size = s.pool.size
  closed : s.pool.isOpen = false → t.pool.isOpen = false

namespace Sequel

theorem refl (s : Shift) : s.Sequel s :=
  ⟨List.prefix_refl _, List.prefix_refl _, List.prefix_refl _, rfl, id⟩

theorem trans {u : Shift} (h : s.Sequel t) (h' : t.Sequel u) : s.Sequel u :=
  ⟨h.jobs.trans h'.jobs, h.started.trans h'.started, h.finished.trans h'.finished,
    h'.size.trans h.size, h'.closed ∘ h.closed⟩

theorem job (h : s.Sequel t) (hn : n < s.jobs.length) : t.job n = s.job n := by
  obtain ⟨later, hlater⟩ := h.jobs
  unfold Shift.job
  rw [← hlater, List.getElem?_append_left hn]

end Sequel

theorem sequel_start (s : Shift) (n : Nat) : s.Sequel (s.start n).1 := by
  rw [start_eq]
  cases (s.job n).gate? with
  | none => exact ⟨List.prefix_refl _, List.prefix_append _ _, List.prefix_refl _, rfl, id⟩
  | some gate => exact ⟨List.prefix_refl _, List.prefix_append _ _, List.prefix_refl _, rfl, id⟩

theorem sequel_finish (s : Shift) (n : Nat) : s.Sequel (s.finish n).1 := by
  rw [finish_eq]
  have hpool : (s.pool.release n).1.size = s.pool.size ∧
      (s.pool.release n).1.isOpen = s.pool.isOpen := by
    unfold Pool.release
    cases s.pool.line with
    | nil => exact ⟨rfl, rfl⟩
    | cons next line => dsimp only; split <;> exact ⟨rfl, rfl⟩
  exact ⟨List.prefix_refl _, List.prefix_refl _, List.prefix_append _ _, hpool.1, hpool.2.trans⟩

theorem sequel_runFrom (s : Shift) (n fuel : Nat) : s.Sequel (s.runFrom n fuel) := by
  induction fuel generalizing s n with
  | zero => exact .refl s
  | succ fuel ih =>
    have hstart := sequel_start s n
    unfold runFrom
    generalize s.start n = r at hstart ⊢
    obtain ⟨s₁, _ | _⟩ := r
    · exact hstart
    · have hfinish := sequel_finish s₁ n
      dsimp only
      generalize s₁.finish n = r at hfinish ⊢
      obtain ⟨s₂, _ | next⟩ := r
      · exact hstart.trans hfinish
      · exact (hstart.trans hfinish).trans (ih s₂ next)

theorem sequel_passed (s : Shift) (n : Nat) : s.Sequel (s.passed n) := by
  have hfinish := sequel_finish s n
  unfold passed
  generalize s.finish n = r at hfinish ⊢
  obtain ⟨s', _ | next⟩ := r
  · exact hfinish
  · exact hfinish.trans (sequel_runFrom s' next _)

theorem sequel_foldl_passed (s : Shift) (hands : List Nat) : s.Sequel (hands.foldl passed s) := by
  induction hands generalizing s with
  | nil => exact .refl s
  | cons n hands ih => exact (sequel_passed s n).trans (ih _)

theorem sequel_submit (h : s.Kept []) (job : Job) : s.Sequel (s.submit job) := by
  have hsubmission := h.pool.submission s.jobs.length
  unfold submit
  dsimp only
  generalize s.pool.submit s.jobs.length = r at hsubmission ⊢
  have hjobs : s.jobs <+: s.jobs ++ [job] := List.prefix_append _ _
  cases hsubmission with
  | refused =>
    exact ⟨hjobs, List.prefix_refl _, List.prefix_append _ _, rfl, id⟩
  | started =>
    refine Sequel.trans ?_ (sequel_runFrom _ _ _)
    exact ⟨hjobs, List.prefix_refl _, List.prefix_refl _, rfl, id⟩
  | queued =>
    exact ⟨hjobs, List.prefix_refl _, List.prefix_refl _, rfl, id⟩

theorem sequel_step (h : s.Kept []) (m : Move) : s.Sequel (s.step m) := by
  cases m with
  | submit job => exact sequel_submit h job
  | release gate n =>
    refine Sequel.trans ?_ (sequel_foldl_passed _ _)
    exact ⟨List.prefix_refl _, List.prefix_refl _, List.prefix_refl _, rfl, id⟩
  | close =>
    exact ⟨List.prefix_refl _, List.prefix_refl _, List.prefix_append _ _, rfl, fun _ => rfl⟩

theorem sequel_run (h : s.Kept []) (moves : List Move) : s.Sequel (s.run moves) := by
  induction moves generalizing s with
  | nil => exact .refl s
  | cons m moves ih => exact (sequel_step h m).trans (ih (kept_step h m))

/-! ## Closed pools -/

theorem started_passed (hline : s.pool.line = []) :
    (s.passed n).started = s.started ∧ (s.passed n).pool.line = [] := by
  have hrelease : s.pool.release n = ({ s.pool with running := s.pool.running.erase n }, none) := by
    unfold Pool.release
    simp only [hline]
  unfold passed
  rw [finish_eq, hrelease]
  exact ⟨rfl, hline⟩

theorem started_foldl_passed (hline : s.pool.line = []) (hands : List Nat) :
    (hands.foldl passed s).started = s.started := by
  induction hands generalizing s with
  | nil => rfl
  | cons n hands ih =>
    obtain ⟨hstarted, hline'⟩ := started_passed (n := n) hline
    exact (ih hline').trans hstarted

/-- At a closed pool no job begins. -/
theorem started_step (h : s.Kept []) (hclosed : s.pool.isOpen = false) (m : Move) :
    (s.step m).started = s.started := by
  have hline := h.pool.closed hclosed
  cases m with
  | submit job =>
    have hsubmit : s.pool.submit s.jobs.length = (s.pool, .refused) := by
      unfold Pool.submit
      rw [hclosed]
      rfl
    show (s.submit job).started = s.started
    unfold submit
    dsimp only
    rw [hsubmit]
  | release gate n =>
    exact started_foldl_passed (s := { s with gates := (s.gates.release gate n).1 }) hline _
  | close => rfl

theorem started_run (h : s.Kept []) (hclosed : s.pool.isOpen = false) (moves : List Move) :
    (s.run moves).started = s.started := by
  induction moves generalizing s with
  | nil => rfl
  | cons m moves ih =>
    exact (ih (kept_step h m) ((sequel_step h m).closed hclosed)).trans (started_step h hclosed m)

/-! ## Where a job stands -/

/-- What has become of a job. -/
inductive JobStatus
  | queued
  | running
  | ended (how : JobEnd)
  deriving DecidableEq, Repr

/-- A job stands in the line, holds a slot, or has come to its end. -/
def Stands (s : Shift) (n : Nat) : JobStatus → Prop
  | .queued => n ∈ s.pool.line
  | .running => n ∈ s.pool.running
  | .ended how => (n, how) ∈ s.finished

/-- What has become of a job, by what has begun so far. -/
def status (s : Shift) (n : Nat) : JobStatus :=
  if n ∈ s.pool.line then .queued
  else if n ∈ s.pool.running then .running
  else .ended (if n ∈ s.started then (s.job n).ending else .skipped)

namespace Kept

variable {hands : List Nat}

theorem nodup_order (h : s.Kept hands) : (s.started ++ (s.pool.line ++ s.skipped)).Nodup :=
  h.order ▸ List.nodup_range

theorem nodup_ended (h : s.Kept hands) : (s.ended ++ s.pool.running).Nodup :=
  h.ended.nodup_iff.2 h.nodup_order.of_append_left

theorem mem_started_of_running (h : s.Kept hands) (hn : n ∈ s.pool.running) : n ∈ s.started :=
  h.ended.mem_iff.1 (List.mem_append_right _ hn)

theorem not_mem_started_of_line (h : s.Kept hands) (hn : n ∈ s.pool.line) : n ∉ s.started :=
  fun hn' => List.disjoint_of_nodup_append h.nodup_order hn' (List.mem_append_left _ hn)

/-- A job has ended as it ends if it had begun, and as skipped otherwise. -/
theorem stands_ended (h : s.Kept hands) {how : JobEnd} (hn : (n, how) ∈ s.finished) :
    s.status n = .ended how := by
  unfold status
  by_cases hhow : how = .skipped
  · have hmem : n ∈ s.skipped := mem_skipped.2 (hhow ▸ hn)
    have hline : n ∉ s.pool.line := fun hn' =>
      List.disjoint_of_nodup_append h.nodup_order.of_append_right hn' hmem
    have hstarted : n ∉ s.started := fun hn' =>
      List.disjoint_of_nodup_append h.nodup_order hn' (List.mem_append_right _ hmem)
    have hrunning : n ∉ s.pool.running := fun hn' => hstarted (h.mem_started_of_running hn')
    rw [if_neg hline, if_neg hrunning, if_neg hstarted, hhow]
  · have hmem : n ∈ s.ended := mem_ended.2 ⟨how, hhow, hn⟩
    have hstarted : n ∈ s.started := h.ended.mem_iff.1 (List.mem_append_left _ hmem)
    have hline : n ∉ s.pool.line := fun hn' => h.not_mem_started_of_line hn' hstarted
    have hrunning : n ∉ s.pool.running := fun hn' =>
      List.disjoint_of_nodup_append h.nodup_ended hmem hn'
    rw [if_neg hline, if_neg hrunning, if_pos hstarted, (h.ending n how hn).resolve_left hhow]

/-- A job that was submitted stands in one place. -/
theorem stands_iff (h : s.Kept hands) (hn : n < s.jobs.length) (status : JobStatus) :
    s.Stands n status ↔ status = s.status n := by
  have hall : n ∈ s.started ++ (s.pool.line ++ s.skipped) := h.order ▸ List.mem_range.2 hn
  constructor
  · intro hstands
    cases status with
    | queued => exact (if_pos hstands).symm
    | running =>
      have hline : n ∉ s.pool.line := fun hn' =>
        h.not_mem_started_of_line hn' (h.mem_started_of_running hstands)
      exact ((if_neg hline).trans (if_pos hstands)).symm
    | ended how => exact (h.stands_ended hstands).symm
  · rintro rfl
    by_cases hline : n ∈ s.pool.line
    · rw [Shift.status, if_pos hline]
      exact hline
    by_cases hrunning : n ∈ s.pool.running
    · rw [Shift.status, if_neg hline, if_pos hrunning]
      exact hrunning
    -- whoever has begun and holds no slot has ended, and so has whoever neither began nor waits
    have hended : ∃ how, (n, how) ∈ s.finished := by
      rcases List.mem_append.1 hall with hstarted | hrest
      · have hholders := List.mem_append.1 (h.ended.mem_iff.2 hstarted)
        obtain ⟨how, -, hf⟩ := mem_ended.1 (hholders.resolve_right hrunning)
        exact ⟨how, hf⟩
      · exact ⟨.skipped, mem_skipped.1 ((List.mem_append.1 hrest).resolve_left hline)⟩
    obtain ⟨how, hf⟩ := hended
    rw [h.stands_ended hf]
    exact hf

end Kept

/-! ## Jobs that fail -/

/-- A shift as if none of its jobs failed. -/
def calm (s : Shift) : Shift :=
  { s with jobs := s.jobs.map Job.calm, finished := s.finished.map fun f => (f.1, f.2.calm) }

theorem length_jobs_calm (s : Shift) : s.calm.jobs.length = s.jobs.length := List.length_map _

theorem job_calm (s : Shift) (n : Nat) : s.calm.job n = (s.job n).calm := by
  show (s.jobs.map Job.calm)[n]?.getD default = (s.jobs[n]?.getD default).calm
  rw [List.getElem?_map]
  cases s.jobs[n]? <;> rfl

theorem start_calm (s : Shift) (n : Nat) :
    s.calm.start n = ((s.start n).1.calm, (s.start n).2) := by
  rw [start_eq, start_eq, job_calm]
  cases hgate : (s.job n).gate? with
  | none => simp only [Job.calm, hgate]; rfl
  | some gate => simp only [Job.calm, hgate]; rfl

theorem finish_calm (s : Shift) (n : Nat) :
    s.calm.finish n = ((s.finish n).1.calm, (s.finish n).2) := by
  rw [finish_eq, finish_eq, job_calm, Job.ending_calm]
  simp only [calm, List.map_append, List.map_singleton]

theorem runFrom_calm (s : Shift) (n fuel : Nat) :
    s.calm.runFrom n fuel = (s.runFrom n fuel).calm := by
  induction fuel generalizing s n with
  | zero => rfl
  | succ fuel ih =>
    unfold runFrom
    rw [start_calm]
    generalize s.start n = r
    obtain ⟨s₁, _ | _⟩ := r
    · rfl
    · dsimp only
      rw [finish_calm]
      generalize s₁.finish n = r
      obtain ⟨s₂, _ | next⟩ := r
      · rfl
      · exact ih s₂ next

theorem passed_calm (s : Shift) (n : Nat) : s.calm.passed n = (s.passed n).calm := by
  unfold passed
  rw [finish_calm]
  generalize s.finish n = r
  obtain ⟨s', _ | next⟩ := r
  · rfl
  · dsimp only
    rw [runFrom_calm, length_jobs_calm]

theorem foldl_passed_calm (s : Shift) (hands : List Nat) :
    hands.foldl passed s.calm = (hands.foldl passed s).calm := by
  induction hands generalizing s with
  | nil => rfl
  | cons n hands ih => rw [List.foldl_cons, List.foldl_cons, passed_calm, ih]

theorem submit_calm (s : Shift) (job : Job) : s.calm.submit job.calm = (s.submit job).calm := by
  have hnew : ∀ pool, ({ s.calm with pool, jobs := s.calm.jobs ++ [job.calm] } : Shift) =
      calm { s with pool, jobs := s.jobs ++ [job] } := by
    intro pool
    simp only [calm, List.map_append, List.map_singleton]
  have hpool : s.calm.pool = s.pool := rfl
  unfold submit
  dsimp only
  rw [length_jobs_calm, hpool]
  generalize s.pool.submit s.jobs.length = r
  obtain ⟨pool, _ | _ | _⟩ := r
  · dsimp only
    rw [hnew, runFrom_calm, List.length_append, List.length_append, length_jobs_calm]
    rfl
  · exact hnew pool
  · simp only [calm, List.map_append, List.map_singleton]
    rfl

/-- The same move with a job that does not fail. -/
def Move.calm : Move → Move
  | .submit job => .submit job.calm
  | .release gate n => .release gate n
  | .close => .close

theorem step_calm (s : Shift) (m : Move) : s.calm.step m.calm = (s.step m).calm := by
  cases m with
  | submit job => exact submit_calm s job
  | release gate n => exact foldl_passed_calm { s with gates := (s.gates.release gate n).1 } _
  | close =>
    simp only [step, Move.calm, close, calm, List.map_append, List.map_map]
    rfl

/-- A job that fails makes no difference to the others. -/
theorem run_calm (s : Shift) (moves : List Move) :
    s.calm.run (moves.map Move.calm) = (s.run moves).calm := by
  induction moves generalizing s with
  | nil => rfl
  | cons m moves ih =>
    show (s.calm.step m.calm).run (moves.map Move.calm) = _
    rw [step_calm]
    exact ih (s.step m)

/-! ## Every run -/

theorem mem_finished_passed (s : Shift) (n : Nat) :
    (n, (s.job n).ending) ∈ (s.passed n).finished := by
  have hfinished : (n, (s.job n).ending) ∈ (s.finish n).1.finished := by
    rw [finish_eq]
    exact List.mem_append_right _ (List.mem_singleton_self _)
  unfold passed
  generalize s.finish n = r at hfinished ⊢
  obtain ⟨s', _ | next⟩ := r
  · exact hfinished
  · exact (sequel_runFrom s' next _).finished.subset hfinished

/-- All that were let through end. -/
theorem mem_finished_foldl_passed {hands : List Nat} (hlt : n < s.jobs.length) (hn : n ∈ hands) :
    (n, (s.job n).ending) ∈ (hands.foldl passed s).finished := by
  induction hands generalizing s with
  | nil => cases hn
  | cons m hands ih =>
    have hpassed := sequel_passed s m
    rcases List.mem_cons.1 hn with rfl | hn
    · exact (sequel_foldl_passed _ hands).finished.subset (mem_finished_passed s n)
    · rw [← hpassed.job hlt]
      exact ih (Nat.lt_of_lt_of_le hlt hpassed.jobs.length_le) hn

/-- Every job that holds a slot waits at its gate, and ends once there are passes. -/
theorem Kept.finishes (h : s.Kept []) (hn : n ∈ s.pool.running) :
    ∃ gate, (s.job n).gate? = some gate ∧
      (n, (s.job n).ending) ∈ (s.release gate s.gates.waiting.length).finished := by
  have hwaiting : n ∈ s.gates.waiting.map (·.2) := by simpa using h.running.mem_iff.1 hn
  obtain ⟨⟨gate, n'⟩, hmem, rfl⟩ := List.mem_map.1 hwaiting
  exact ⟨gate, h.waiting gate n' hmem,
    mem_finished_foldl_passed (h.lt_of_mem_running hn) (Gates.mem_release (Nat.le_refl _) hmem)⟩

/-- What holds of a shift after every run. -/
structure Accounted (s : Shift) : Prop where
  /-- Each job is in one place: in line, running, or at an end of its own. -/
  once : ∀ n < s.jobs.length, ∃! status, s.Stands n status
  bounded : s.pool.inUse ≤ s.pool.size
  slots : s.pool.inUse + s.pool.available = s.pool.size
  /-- Nobody is in line while a slot is free. -/
  busy : s.pool.line ≠ [] → s.pool.inUse = s.pool.size
  /-- The jobs begin in the order in which they were submitted, and the skipped ones come last. -/
  order : s.started ++ (s.pool.line ++ s.skipped) = List.range s.jobs.length
  /-- Those that have begun have ended, or hold a slot. -/
  holders : (s.ended ++ s.pool.running).Perm s.started
  /-- Whoever has begun ends as it does, and all others are skipped. -/
  ending : ∀ n how, (n, how) ∈ s.finished →
    how = if n ∈ s.started then (s.job n).ending else .skipped
  finishes : ∀ n ∈ s.pool.running, ∃ gate, (s.job n).gate? = some gate ∧
    (n, (s.job n).ending) ∈ (s.release gate s.gates.waiting.length).finished

theorem Kept.accounted (h : s.Kept []) : s.Accounted where
  once n hn := ⟨s.status n, (h.stands_iff hn _).2 rfl, fun status => (h.stands_iff hn status).1⟩
  bounded := h.pool.bounded
  slots := Nat.add_sub_of_le h.pool.bounded
  busy := h.pool.busy
  order := h.order
  holders := h.ended
  ending n how hn := by
    have hstatus := h.stands_ended hn
    unfold status at hstatus
    split at hstatus
    · cases hstatus
    split at hstatus
    · cases hstatus
    · exact (JobStatus.ended.inj hstatus).symm
  finishes _ hn := h.finishes hn

/-- `t` comes after `s` was closed: nobody has begun since, those in line were skipped and so were
all that came later, and those that held a slot still hold it or have ended as they end. -/
structure ClosedFor (s t : Shift) : Prop where
  started : t.started = s.started
  line : ∀ n ∈ s.pool.line, (n, .skipped) ∈ t.finished
  later : ∀ n, s.jobs.length ≤ n → n < t.jobs.length → (n, .skipped) ∈ t.finished
  running : ∀ n ∈ s.pool.running, n ∈ t.pool.running ∨ (n, (s.job n).ending) ∈ t.finished

theorem Kept.closedFor (h : s.Kept []) (later : List Move) :
    s.ClosedFor (s.close.run later) := by
  have hclose := kept_close h
  have hrun := kept_run hclose later
  have hsequel := sequel_run hclose later
  have hstarted : (s.close.run later).started = s.started := started_run hclose rfl later
  have hline : (s.close.run later).pool.line = [] := hrun.pool.closed (hsequel.closed rfl)
  refine ⟨hstarted, fun n hn => ?_, fun n hle hlt => ?_, fun n hn => ?_⟩
  · refine hsequel.finished.subset (List.mem_append_right _ ?_)
    exact List.mem_map.2 ⟨n, hn, rfl⟩
  · have hall := List.mem_range.2 hlt
    rw [← hrun.order, hstarted, hline, List.nil_append] at hall
    refine mem_skipped.1 ((List.mem_append.1 hall).resolve_left fun hn => ?_)
    have := h.lt_of_mem_order (List.mem_append_left _ hn)
    omega
  · have hn' : n ∈ (s.close.run later).started := hstarted ▸ h.mem_started_of_running hn
    rcases List.mem_append.1 (hrun.ended.mem_iff.2 hn') with hended | hrunning
    · obtain ⟨how, hhow, hf⟩ := mem_ended.1 hended
      rw [(hrun.ending n how hf).resolve_left hhow, hsequel.job (h.lt_of_mem_running hn)] at hf
      exact .inr hf
    · exact .inl hrunning

/-- **The jobs of a pool are accounted for.** A pool can have any size up to the greatest, and then
it has one slot at least. After any moves each job is in one place, no more jobs run than there are
slots, the free slots and the taken ones make up the size, and a job is in line only if every slot
is taken. Jobs begin in the order in which they came, and each of those that run has begun, has not
ended, and ends once there are passes for its gate. It makes no difference to any job if others
fail. If the pool is closed then, nobody begins any more: whoever is in line or comes later is
skipped, and whoever runs still comes to the end. -/
theorem accounted_of_run {size : Nat} (hsize : size ≤ Pool.maxSize) :
    ∃ s₀, new? size = some s₀ ∧ ∀ moves,
      (s₀.run moves).pool.size = max size 1 ∧ (s₀.run moves).Accounted ∧
        s₀.run (moves.map Move.calm) = (s₀.run moves).calm ∧
        ∀ later, (s₀.run moves).ClosedFor ((s₀.run moves).close.run later) ∧
          ((s₀.run moves).close.run later).Accounted := by
  have hnew : new? size = some ⟨.idle size, [], .empty, [], []⟩ := by
    simp [new?, Pool.new?, hsize]
  refine ⟨_, hnew, fun moves => ?_⟩
  have h := kept_run (kept_new hnew) moves
  have hcalm := run_calm ⟨.idle size, [], .empty, [], []⟩ moves
  refine ⟨(sequel_run (kept_new hnew) moves).size, h.accounted, hcalm, fun later => ?_⟩
  exact ⟨h.closedFor later, (kept_run (kept_close h) later).accounted⟩

/-- Two jobs at a press, one of which fails; once they are through, those behind them begin. -/
def atThePress : List Move :=
  [.submit ⟨"cover", some "press", false⟩, .submit ⟨"proof", some "press", true⟩,
    .submit ⟨"count", none, false⟩, .submit ⟨"page", some "dryer", false⟩,
    .release "press" 2, .submit ⟨"card", some "dryer", false⟩, .submit ⟨"label", none, false⟩]

/-- Both slots are handed on, also that of the job that fails; the last job is skipped at the
end. -/
theorem accounted_of_run_press :
    2 ≤ Pool.maxSize ∧ ∃ s₀, new? 2 = some s₀ ∧ (s₀.run atThePress).Accounted ∧
      (s₀.run atThePress).finished = [(0, .done), (2, .done), (1, .failed)] ∧
      (s₀.run atThePress).pool.running = [3, 4] ∧ (s₀.run atThePress).pool.line = [5] ∧
      (s₀.run atThePress).ClosedFor ((s₀.run atThePress).close.run [.release "dryer" 2]) ∧
      ((s₀.run atThePress).close.run [.release "dryer" 2]).finished =
        [(0, .done), (2, .done), (1, .failed), (5, .skipped), (3, .done), (4, .done)] := by
  have hsize : 2 ≤ Pool.maxSize := by decide
  obtain ⟨s₀, hnew, h⟩ := accounted_of_run hsize
  obtain ⟨-, haccounted, -, hlater⟩ := h atThePress
  obtain ⟨hclosed, -⟩ := hlater [.release "dryer" 2]
  cases (show new? 2 = some ⟨⟨2, [], [], true⟩, [], .empty, [], []⟩ from rfl).symm.trans hnew
  exact ⟨hsize, _, hnew, haccounted, by decide, by decide, by decide, hclosed, by decide⟩

end Shift

end Correlator
