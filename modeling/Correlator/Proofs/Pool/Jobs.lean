import Mathlib.Data.List.Perm.Basic
import Correlator.Pool.Shift
import Correlator.Proofs.Gates

/-!
# The jobs of a shift

What the steps of a shift do to its jobs. Jobs on hand hold a slot and are about to end; all others
that hold one wait at their gates.

* `Pool.Orderly`: no more slots are taken than there are, and nobody waits while one is free.
* `Pool.Submission`, `Pool.Handover`: what becomes of a job that is submitted, and of the slot of a
  job that has ended.
* `Shift.Kept`: what holds of a shift while some jobs are on hand; `Shift.Poised`: besides, a job
  has just got a slot and is about to begin.
* `Shift.kept_start`, `Shift.kept_finish`, `Shift.kept_runFrom`: jobs begin and end.
* `Shift.kept_submit`, `Shift.kept_release`, `Shift.kept_close`: the steps from outside.

All is carried by `Shift.Kept.order`: the jobs in the order of their submission are those that have
started, then those in line, and then those that were skipped.
-/

namespace Correlator

/-! ## Pools -/

namespace Pool

variable {α : Type} {p : Pool α} {job : α}

/-- No more slots are taken than there are, nobody waits while a slot is free, and at a closed pool
nobody waits at all. -/
structure Orderly (p : Pool α) : Prop where
  bounded : p.running.length ≤ p.size
  busy : p.line ≠ [] → p.running.length = p.size
  closed : p.isOpen = false → p.line = []

theorem orderly_idle (size : Nat) : (idle size : Pool α).Orderly :=
  ⟨Nat.zero_le _, fun h => absurd rfl h, fun _ => rfl⟩

/-- What becomes of a job that is submitted. -/
inductive Submission (p : Pool α) (job : α) : Pool α × Admission → Prop
  | refused : p.isOpen = false → Submission p job (p, .refused)
  | started : p.isOpen = true → p.line = [] → p.running.length < p.size →
      Submission p job ({ p with running := p.running ++ [job] }, .started)
  | queued : p.isOpen = true → p.running.length = p.size →
      Submission p job ({ p with line := p.line ++ [job] }, .queued)

/-- A job starts at once if a slot is free, and then nobody was in line before it. -/
theorem Orderly.submission (h : p.Orderly) (job : α) : Submission p job (p.submit job) := by
  obtain ⟨size, running, line, isOpen⟩ := p
  unfold submit
  cases isOpen with
  | false => exact .refused rfl
  | true =>
    by_cases hfree : running.length < size
    · have hline : line = [] := by
        by_contra hline
        exact absurd (h.busy hline) (Nat.ne_of_lt hfree)
      simpa [hfree] using Submission.started (p := ⟨size, running, line, true⟩) rfl hline hfree
    · have hfull : running.length = size := Nat.le_antisymm h.bounded (Nat.not_lt.1 hfree)
      simpa [hfree] using Submission.queued (p := ⟨size, running, line, true⟩) rfl hfull

/-- Who takes over the slot of a job that has ended. -/
inductive Handover [BEq α] (p : Pool α) (job : α) : Pool α × Option α → Prop
  | free : p.line = [] → Handover p job ({ p with running := p.running.erase job }, none)
  | next {next line} : p.line = next :: line →
      Handover p job ({ p with running := p.running.erase job ++ [next], line }, some next)

section Release

variable [BEq α] [LawfulBEq α]

/-- The first job in line takes over the slot of a job that has ended. -/
theorem Orderly.handover (h : p.Orderly) (hjob : job ∈ p.running) :
    Handover p job (p.release job) := by
  have hlength := List.length_erase_of_mem hjob
  have hpos := List.length_pos_of_mem hjob
  have hbounded := h.bounded
  have hfree : (p.running.erase job).length < p.size := by omega
  obtain ⟨size, running, line, isOpen⟩ := p
  unfold Pool.release
  cases line with
  | nil => exact .free rfl
  | cons next line =>
    simpa [hfree] using Handover.next (p := ⟨size, running, next :: line, isOpen⟩) rfl

/-- A pool stays orderly when a slot is handed on. -/
theorem Orderly.release (h : p.Orderly) (hjob : job ∈ p.running) : (p.release job).1.Orderly := by
  have hlength := List.length_erase_of_mem hjob
  have hpos := List.length_pos_of_mem hjob
  have hbounded := h.bounded
  have hhandover := h.handover hjob
  generalize p.release job = r at hhandover ⊢
  cases hhandover with
  | free hline =>
    refine ⟨?_, fun hne => absurd hline hne, fun _ => hline⟩
    show (p.running.erase job).length ≤ p.size
    omega
  | @next next line hline =>
    have hfull := h.busy (by simp [hline])
    have hkept : (p.running.erase job ++ [next]).length = p.size := by
      rw [List.length_append, List.length_singleton]
      omega
    refine ⟨Nat.le_of_eq hkept, fun _ => hkept, fun hclosed => ?_⟩
    cases hline.symm.trans (h.closed hclosed)

end Release

/-- A pool stays orderly when a job is submitted. -/
theorem Orderly.submit (h : p.Orderly) (job : α) : (p.submit job).1.Orderly := by
  have hsubmission := h.submission job
  generalize p.submit job = r at hsubmission ⊢
  cases hsubmission with
  | refused => exact h
  | started hopen hline hfree =>
    refine ⟨?_, fun hne => absurd hline hne, fun _ => hline⟩
    show (p.running ++ [job]).length ≤ p.size
    rw [List.length_append, List.length_singleton]
    omega
  | queued hopen hfull =>
    exact ⟨h.bounded, fun _ => hfull, fun hclosed => Bool.noConfusion (hopen.symm.trans hclosed)⟩

theorem Orderly.close (h : p.Orderly) : p.close.1.Orderly :=
  ⟨h.bounded, fun hne => absurd rfl hne, fun _ => rfl⟩

end Pool

/-! ## Shifts -/

/-- How a job ends if it is not skipped. -/
def Job.ending (j : Job) : JobEnd := if j.fails then .failed else .done

namespace Shift

variable {s : Shift} {n : Nat} {hands : List Nat}

/-- The jobs that were skipped, in order. -/
def skipped (s : Shift) : List Nat := (s.finished.filter fun f => f.2 = .skipped).map (·.1)

/-- The jobs that have ended after they had begun, in order. -/
def ended (s : Shift) : List Nat := (s.finished.filter fun f => f.2 ≠ .skipped).map (·.1)

/-- What holds of a shift while some jobs are on hand. -/
structure Kept (s : Shift) (hands : List Nat) : Prop where
  pool : s.pool.Orderly
  order : s.started ++ (s.pool.line ++ s.skipped) = List.range s.jobs.length
  unskipped : s.pool.isOpen = true → s.skipped = []
  running : s.pool.running.Perm (s.gates.waiting.map (·.2) ++ hands)
  ended : (s.ended ++ s.pool.running).Perm s.started
  ending : ∀ n how, (n, how) ∈ s.finished → how = .skipped ∨ how = (s.job n).ending
  waiting : ∀ gate n, (gate, n) ∈ s.gates.waiting → (s.job n).gate? = some gate

/-- What holds of a shift when a job has just got a slot and is about to begin. -/
def Poised (s : Shift) (n : Nat) (hands : List Nat) : Prop :=
  Kept { s with started := s.started ++ [n] } (n :: hands)

namespace Kept

/-- Jobs of numbers that were not given yet have left no trace. -/
theorem lt_of_mem_order (h : s.Kept hands) (hn : n ∈ s.started ++ (s.pool.line ++ s.skipped)) :
    n < s.jobs.length := by
  rw [h.order] at hn
  exact List.mem_range.1 hn

theorem lt_of_mem_running (h : s.Kept hands) (hn : n ∈ s.pool.running) : n < s.jobs.length :=
  h.lt_of_mem_order (List.mem_append_left _ (h.ended.mem_iff.1 (List.mem_append_right _ hn)))

theorem mem_running (h : s.Kept (n :: hands)) : n ∈ s.pool.running :=
  h.running.mem_iff.2 (by simp)

theorem mem_of_mem_waiting {gate : String} (h : s.Kept hands) (hn : (gate, n) ∈ s.gates.waiting) :
    n ∈ s.pool.running :=
  h.running.mem_iff.2 (List.mem_append_left _ (List.mem_map.2 ⟨_, hn, rfl⟩))

theorem length_line_le (h : s.Kept hands) : s.pool.line.length ≤ s.jobs.length := by
  have hlength := congrArg List.length h.order
  simp only [List.length_append, List.length_range] at hlength
  omega

end Kept

theorem mem_skipped : n ∈ s.skipped ↔ (n, .skipped) ∈ s.finished := by
  simp [skipped]

theorem mem_ended : n ∈ s.ended ↔ ∃ how, how ≠ .skipped ∧ (n, how) ∈ s.finished := by
  simp [Shift.ended, and_comm]

theorem Kept.lt_of_mem_finished {how : JobEnd} (h : s.Kept hands) (hn : (n, how) ∈ s.finished) :
    n < s.jobs.length := by
  by_cases hhow : how = .skipped
  · subst hhow
    exact h.lt_of_mem_order (by simp [mem_skipped.2 hn])
  · have hended : n ∈ s.ended := mem_ended.2 ⟨how, hhow, hn⟩
    exact h.lt_of_mem_order
      (List.mem_append_left _ (h.ended.mem_iff.1 (List.mem_append_left _ hended)))

/-! ## Jobs that begin and end -/

theorem start_eq (s : Shift) (n : Nat) :
    s.start n =
      match (s.job n).gate? with
      | none => ({ s with started := s.started ++ [n] }, true)
      | some gate =>
        ({ s with started := s.started ++ [n], gates := (s.gates.arrive gate n).1 },
          (s.gates.arrive gate n).2) := rfl

theorem finish_eq (s : Shift) (n : Nat) :
    s.finish n =
      ({ s with
        pool := (s.pool.release n).1
        finished := s.finished ++ [(n, (s.job n).ending)] }, (s.pool.release n).2) := rfl

theorem ending_ne_skipped (j : Job) : j.ending ≠ .skipped := by
  unfold Job.ending
  split <;> simp

/-- A job that begins waits at its gate, or is on hand. -/
theorem kept_start (h : s.Poised n hands) :
    (s.start n).1.pool = s.pool ∧
      (s.start n).1.Kept (if (s.start n).2 then n :: hands else hands) := by
  rw [start_eq]
  cases hgate : (s.job n).gate? with
  | none => exact ⟨rfl, h⟩
  | some gate =>
    have hwaiting := Gates.waiting_arrive s.gates gate n
    refine ⟨rfl, ?_⟩
    dsimp only
    cases hthrough : (s.gates.arrive gate n).2 with
    | true =>
      rw [hthrough, if_pos rfl] at hwaiting
      exact { h with
        running := hwaiting ▸ h.running
        waiting := hwaiting ▸ h.waiting }
    | false =>
      rw [hthrough, if_neg Bool.false_ne_true] at hwaiting
      refine { h with running := ?_, waiting := ?_ }
      · have hrunning : s.pool.running.Perm (s.gates.waiting.map (·.2) ++ n :: hands) := h.running
        simpa [hwaiting] using hrunning
      · intro gate' n' hmem
        change (gate', n') ∈ (s.gates.arrive gate n).1.waiting at hmem
        rw [hwaiting] at hmem
        rcases List.mem_append.1 hmem with hmem | hmem
        · exact h.waiting gate' n' hmem
        · cases List.mem_singleton.1 hmem
          exact hgate

/-- The slot of a job that ends stays free, or the next job is about to begin. -/
theorem kept_finish (h : s.Kept (n :: hands)) :
    match (s.finish n).2 with
    | none => (s.finish n).1.Kept hands
    | some next =>
      (s.finish n).1.Poised next hands ∧ (s.finish n).1.pool.line.length < s.pool.line.length := by
  have hn := h.mem_running
  have hhandover := h.pool.handover hn
  have hpool := h.pool.release hn
  have hrunning : (s.pool.running.erase n).Perm (s.gates.waiting.map (·.2) ++ hands) :=
    (((List.perm_cons_erase hn).symm.trans h.running).trans List.perm_middle).cons_inv
  have hended : (s.ended ++ n :: s.pool.running.erase n).Perm s.started :=
    ((List.perm_cons_erase hn).symm.append_left s.ended).trans h.ended
  have hending : ∀ n' how, (n', how) ∈ s.finished ++ [(n, (s.job n).ending)] →
      how = .skipped ∨ how = (s.job n').ending := by
    intro n' how hmem
    rcases List.mem_append.1 hmem with hmem | hmem
    · exact h.ending n' how hmem
    · cases List.mem_singleton.1 hmem
      exact .inr rfl
  rw [finish_eq]
  dsimp only
  generalize s.pool.release n = r at hhandover hpool ⊢
  cases hhandover with
  | free hline =>
    refine ⟨hpool, ?_, ?_, hrunning, ?_, hending, h.waiting⟩
    · simpa [skipped, ending_ne_skipped] using h.order
    · simpa [skipped, ending_ne_skipped] using h.unskipped
    · simpa [Shift.ended, ending_ne_skipped] using hended
  | @next next line hline =>
    refine ⟨⟨hpool, ?_, ?_, ?_, ?_, hending, h.waiting⟩, ?_⟩
    · simpa [skipped, ending_ne_skipped, hline] using h.order
    · simpa [skipped, ending_ne_skipped] using h.unskipped
    · refine (hrunning.append_right [next]).trans ?_
      rw [List.append_assoc]
      exact (List.perm_append_singleton next hands).append_left _
    · simpa [Shift.ended, ending_ne_skipped] using hended.append_right [next]
    · simp [hline]

/-- A job begins, and so does each one that comes to its slot; no more jobs do than are in line. -/
theorem kept_runFrom {fuel : Nat} (h : s.Poised n hands) (hfuel : s.pool.line.length < fuel) :
    (s.runFrom n fuel).Kept hands := by
  induction fuel generalizing s n with
  | zero => exact absurd hfuel (Nat.not_lt_zero _)
  | succ fuel ih =>
    obtain ⟨hpool, hstart⟩ := kept_start h
    unfold runFrom
    generalize s.start n = r at hpool hstart ⊢
    obtain ⟨s₁, through⟩ := r
    cases through with
    | false => exact hstart
    | true =>
      have hfinish := kept_finish hstart
      dsimp only at hpool ⊢
      generalize s₁.finish n = r at hfinish ⊢
      obtain ⟨s₂, _ | next⟩ := r
      · exact hfinish
      · obtain ⟨hpoised, hline⟩ := hfinish
        refine ih hpoised ?_
        rw [hpool] at hline
        exact Nat.lt_of_lt_of_le hline (Nat.le_of_lt_succ hfuel)

/-- A job on hand ends, and those that come to its slot begin. -/
theorem kept_passed (h : s.Kept (n :: hands)) : (s.passed n).Kept hands := by
  have hfinish := kept_finish h
  have hline := h.length_line_le
  have hjobs : (s.finish n).1.jobs = s.jobs := rfl
  unfold passed
  generalize s.finish n = r at hfinish hjobs ⊢
  obtain ⟨s', _ | next⟩ := r
  · exact hfinish
  · obtain ⟨hpoised, hlt⟩ := hfinish
    refine kept_runFrom hpoised ?_
    dsimp only at hlt hjobs
    rw [hjobs]
    omega

/-! ## Steps from outside -/

/-- Before anything has happened nothing is on hand. -/
theorem kept_new {size : Nat} {s : Shift} (h : new? size = some s) : s.Kept [] := by
  obtain ⟨pool, hpool, rfl⟩ := Option.map_eq_some_iff.1 h
  unfold Pool.new? at hpool
  split at hpool
  · cases hpool
    exact ⟨Pool.orderly_idle size, rfl, fun _ => rfl, .nil, .nil, by simp, by simp [Gates.empty]⟩
  · cases hpool

/-- One more job changes nothing for those that there are. -/
theorem job_append (s : Shift) (job : Job) (hn : n < s.jobs.length) :
    (s.jobs ++ [job])[n]?.getD default = s.job n := by
  rw [List.getElem?_append_left hn]
  rfl

/-- A job is submitted. -/
theorem kept_submit (h : s.Kept hands) (job : Job) : (s.submit job).Kept hands := by
  have hsubmission := h.pool.submission s.jobs.length
  have hpool := h.pool.submit s.jobs.length
  have hending : ∀ n how, (n, how) ∈ s.finished →
      how = .skipped ∨ how = ((s.jobs ++ [job])[n]?.getD default).ending := by
    intro n how hmem
    rw [job_append s job (h.lt_of_mem_finished hmem)]
    exact h.ending n how hmem
  have hwaiting : ∀ gate n, (gate, n) ∈ s.gates.waiting →
      ((s.jobs ++ [job])[n]?.getD default).gate? = some gate := by
    intro gate n hmem
    rw [job_append s job (h.lt_of_mem_running (h.mem_of_mem_waiting hmem))]
    exact h.waiting gate n hmem
  have horder : s.started ++ (s.pool.line ++ s.skipped) ++ [s.jobs.length] =
      List.range (s.jobs ++ [job]).length := by
    rw [h.order, List.length_append, List.length_singleton, List.range_succ]
  unfold submit
  dsimp only
  generalize s.pool.submit s.jobs.length = r at hsubmission hpool ⊢
  cases hsubmission with
  | refused hclosed =>
    refine ⟨hpool, ?_, ?_, h.running, ?_, ?_, hwaiting⟩
    · simpa [skipped] using horder
    · exact fun hopen => Bool.noConfusion (hopen.symm.trans hclosed)
    · simpa [Shift.ended] using h.ended
    · intro n how hmem
      rcases List.mem_append.1 hmem with hmem | hmem
      · exact hending n how hmem
      · cases List.mem_singleton.1 hmem
        exact .inl rfl
  | started hopen hline hfree =>
    have hnone : s.skipped = [] := h.unskipped hopen
    refine kept_runFrom ⟨hpool, ?_, h.unskipped, ?_, ?_, hending, hwaiting⟩ ?_
    · rw [hline, hnone, List.append_nil, List.append_nil] at horder
      show s.started ++ [s.jobs.length] ++ (s.pool.line ++ s.skipped) = _
      rw [hline, hnone, List.append_nil, List.append_nil]
      exact horder
    · refine (h.running.append_right [s.jobs.length]).trans ?_
      rw [List.append_assoc]
      exact (List.perm_append_singleton s.jobs.length hands).append_left _
    · exact (List.append_assoc ..).symm ▸ h.ended.append_right [s.jobs.length]
    · show s.pool.line.length < _
      rw [hline]
      exact Nat.succ_pos _
  | queued hopen hfull =>
    have hnone : s.skipped = [] := h.unskipped hopen
    refine ⟨hpool, ?_, h.unskipped, h.running, h.ended, hending, hwaiting⟩
    rw [hnone, List.append_nil, List.append_assoc] at horder
    show s.started ++ (s.pool.line ++ [s.jobs.length] ++ s.skipped) = _
    rw [hnone, List.append_nil]
    exact horder

/-- The pool is closed. -/
theorem kept_close (h : s.Kept hands) : s.close.Kept hands := by
  have hskipped : s.close.skipped = s.skipped ++ s.pool.line := by
    simp [close, Pool.close, skipped, List.filter_map, Function.comp_def]
  have hended : s.close.ended = s.ended := by
    simp [close, Pool.close, Shift.ended, List.filter_map, Function.comp_def]
  refine ⟨h.pool.close, ?_, fun hopen => Bool.noConfusion hopen, h.running, ?_, ?_, h.waiting⟩
  · refine Eq.trans ?_ h.order
    show s.started ++ ([] ++ s.close.skipped) = _
    rw [hskipped]
    cases hopen : s.pool.isOpen with
    | true => simp [h.unskipped hopen]
    | false => simp [h.pool.closed hopen]
  · rw [hended]
    exact h.ended
  · intro n how hmem
    rcases List.mem_append.1 hmem with hmem | hmem
    · exact h.ending n how hmem
    · obtain ⟨n', -, he⟩ := List.mem_map.1 hmem
      cases he
      exact .inl rfl

theorem kept_foldl_passed (h : s.Kept hands) : (hands.foldl passed s).Kept [] := by
  induction hands generalizing s with
  | nil => exact h
  | cons n hands ih => exact ih (kept_passed h)

/-- There are passes for a gate. -/
theorem kept_release (h : s.Kept []) (gate : String) (n : Nat) : (s.release gate n).Kept [] := by
  have hperm := s.gates.perm_release gate n
  unfold release
  generalize s.gates.release gate n = r at hperm ⊢
  obtain ⟨gates, through⟩ := r
  refine kept_foldl_passed { h with running := ?_, waiting := ?_ }
  · have hnumbers := (hperm.map (·.2)).symm
    simp only [List.map_append, List.map_map, Function.comp_def, List.map_id'] at hnumbers
    have hrunning := h.running
    rw [List.append_nil] at hrunning
    exact (hrunning.trans hnumbers).trans List.perm_append_comm
  · exact fun gate' n' hmem => h.waiting gate' n' (hperm.mem_iff.1 (List.mem_append_right _ hmem))

end Shift

end Correlator
