import Correlator.Proofs.Pool.Jobs

/-!
# Seats

Where a job stands at a pool, and what becomes of it when another one comes or goes.

* `Pool.Distinct`: no job is in two places.
* `Pool.seat`: where a job stands.
* `Pool.Submission.seat`, `Pool.Handover.seat`, `Pool.seat_close`: what is done to the seats when a
  job is submitted, when a slot is handed on, and when the pool is closed. No other job moves than
  those that are named.
-/

namespace Correlator

/-- Where a job stands at a pool. -/
inductive Seat
  /-- It holds a slot. -/
  | slot
  /-- It is in line. -/
  | inLine
  | away
  deriving DecidableEq, Repr

/-- Where a job stands that was submitted. -/
def Admission.seat : Admission → Seat
  | .started => .slot
  | .queued => .inLine
  | .refused => .away

namespace Pool

variable {α : Type} [DecidableEq α] {p : Pool α} {job : α}

/-- No job is in two places. -/
def Distinct (p : Pool α) : Prop := (p.running ++ p.line).Nodup

/-- Where a job stands. -/
def seat (p : Pool α) (job : α) : Seat :=
  if job ∈ p.running then .slot else if job ∈ p.line then .inLine else .away

theorem seat_eq_slot : p.seat job = .slot ↔ job ∈ p.running := by
  unfold seat
  by_cases hrunning : job ∈ p.running
  · simp [hrunning]
  · by_cases hline : job ∈ p.line <;> simp [hrunning, hline]

theorem seat_eq_away : p.seat job = .away ↔ job ∉ p.running ∧ job ∉ p.line := by
  unfold seat
  by_cases hrunning : job ∈ p.running
  · simp [hrunning]
  · by_cases hline : job ∈ p.line <;> simp [hrunning, hline]

theorem Distinct.seat_eq_inLine (h : p.Distinct) : p.seat job = .inLine ↔ job ∈ p.line := by
  have hapart := (List.nodup_append.1 h).2.2
  unfold seat
  split
  · rename_i hrunning
    simpa using fun hline => hapart job hrunning job hline rfl
  · split <;> simpa

/-! ## Jobs that are submitted -/

theorem Submission.seat {r : Pool α × Admission} (h : Submission p job r)
    (hjob : p.seat job = .away) (job' : α) :
    r.1.seat job' = if job' = job then r.2.seat else p.seat job' := by
  obtain ⟨hrunning, hline⟩ := seat_eq_away.1 hjob
  by_cases hjob' : job' = job
  · subst hjob'
    cases h with
    | refused => simpa [Admission.seat] using hjob
    | started | queued => simp [Pool.seat, Admission.seat, hrunning]
  · cases h with
    | refused => simp [hjob']
    | started | queued => simp [Pool.seat, hjob']

theorem Submission.distinct {r : Pool α × Admission} (h : Submission p job r)
    (hjob : p.seat job = .away) (hp : p.Distinct) : r.1.Distinct := by
  obtain ⟨hrunning, hline⟩ := seat_eq_away.1 hjob
  cases h with
  | refused => exact hp
  | started _ hempty =>
    have hnodup : p.running.Nodup := hp.sublist (List.sublist_append_left _ _)
    have hadded : (job :: p.running).Nodup := List.nodup_cons.2 ⟨hrunning, hnodup⟩
    show ((p.running ++ [job]) ++ p.line).Nodup
    rw [hempty, List.append_nil]
    exact (List.perm_append_singleton job p.running).nodup_iff.2 hadded
  | queued =>
    have hadded : (job :: (p.running ++ p.line)).Nodup := by
      refine List.nodup_cons.2 ⟨?_, hp⟩
      rw [List.mem_append]
      exact not_or.2 ⟨hrunning, hline⟩
    show (p.running ++ (p.line ++ [job])).Nodup
    rw [← List.append_assoc]
    exact (List.perm_append_singleton job (p.running ++ p.line)).nodup_iff.2 hadded

omit [DecidableEq α] in
/-- Jobs that come neither open a pool nor close it. -/
theorem Submission.isOpen_eq {r : Pool α × Admission} (h : Submission p job r) :
    r.1.isOpen = p.isOpen := by
  cases h <;> rfl

omit [DecidableEq α] in
theorem Submission.closed {r : Pool α × Admission} (h : Submission p job r)
    (hrefused : r.2 = .refused) : p.isOpen = false := by
  cases h with
  | refused hclosed => exact hclosed
  | started | queued => cases hrefused

/-! ## Slots that are handed on -/

/-- Jobs that end neither open a pool nor close it. -/
theorem Handover.isOpen_eq {r : Pool α × Option α} (h : Handover p job r) :
    r.1.isOpen = p.isOpen := by
  cases h <;> rfl

/-- Who is next was in line. -/
theorem Handover.inLine {r : Pool α × Option α} (h : Handover p job r) (hp : p.Distinct)
    {next : α} (hnext : r.2 = some next) : p.seat next = .inLine := by
  rw [hp.seat_eq_inLine]
  cases h with
  | free => cases hnext
  | next hline =>
    cases hnext
    rw [hline]
    exact List.mem_cons_self

/-- Who has ended leaves, who is next holds a slot, and all others stay where they are. -/
theorem Handover.seat {r : Pool α × Option α} (h : Handover p job r) (hp : p.Distinct)
    (hjob : job ∈ p.running) (job' : α) :
    r.1.seat job' =
      if r.2 = some job' then .slot else if job' = job then .away else p.seat job' := by
  obtain ⟨hrunning, -, hapart⟩ := List.nodup_append.1 hp
  have hout : job ∉ p.line := fun hline => hapart job hjob job hline rfl
  cases h with
  | free hline =>
    by_cases hjob' : job' = job
    · subst hjob'
      simp [Pool.seat, hline, hrunning.mem_erase_iff]
    · simp [Pool.seat, hline, hrunning.mem_erase_iff, hjob']
  | @next next line hline =>
    rw [hline] at hout
    by_cases hnext : job' = next
    · subst hnext
      simp [Pool.seat]
    · have hnext' : next ≠ job' := Ne.symm hnext
      by_cases hjob' : job' = job
      · subst hjob'
        have hrest : job' ∉ line := fun h => hout (List.mem_cons_of_mem next h)
        simp [Pool.seat, hrunning.mem_erase_iff, hnext, hnext', hrest]
      · simp [Pool.seat, hrunning.mem_erase_iff, hjob', hnext, hnext', hline]

theorem Handover.distinct {r : Pool α × Option α} (h : Handover p job r) (hp : p.Distinct) :
    r.1.Distinct := by
  have herased : (p.running.erase job ++ p.line).Nodup :=
    hp.sublist (List.erase_sublist.append (List.Sublist.refl _))
  cases h with
  | free => exact herased
  | next hline =>
    rw [hline] at herased
    simpa [Distinct] using herased

/-! ## Pools that are closed -/

theorem seat_close (hp : p.Distinct) (job : α) :
    p.close.1.seat job = if job ∈ p.line then .away else p.seat job := by
  by_cases hline : job ∈ p.line
  · have hrunning : job ∉ p.running := fun h => (List.nodup_append.1 hp).2.2 job h job hline rfl
    simp [Pool.seat, close, hline, hrunning]
  · simp [Pool.seat, close, hline]

omit [DecidableEq α] in
theorem Distinct.close (hp : p.Distinct) : p.close.1.Distinct := by
  show (p.running ++ []).Nodup
  rw [List.append_nil]
  exact hp.sublist (List.sublist_append_left _ _)

end Pool

end Correlator
