/-!
# Worker pools

A pool runs at most as many jobs at once as it has slots. Jobs that find no slot wait in line and
start in the order in which they were submitted.

* `Pool.new?`: an idle pool.
* `Pool.submit`: a job that starts, waits, or is turned away because the pool is closed.
* `Pool.release`: a slot that becomes free and goes to the first job in line.
* `Pool.close`: no job starts any more. Those in line are turned away, those running go on.

A job that fails gives its slot back like any other, so nothing here asks how a job ended.
-/

namespace Correlator

/-- Slots, the jobs that hold one, and the jobs in line. -/
structure Pool (α : Type) where
  size : Nat
  running : List α
  /-- The jobs in line, first job first. -/
  line : List α
  isOpen : Bool
  deriving Repr

/-- What became of a job that was submitted. -/
inductive Admission
  | started
  | queued
  | refused
  deriving DecidableEq, Repr

namespace Pool

/-- The greatest number of slots. -/
def maxSize : Nat := (Nat.pow 2 64 - 1) / 8

/-- An idle pool; it has one slot at least. -/
def idle (size : Nat) : Pool α := ⟨max size 1, [], [], true⟩

/-- An idle pool, if there can be one of this size. -/
def new? (size : Nat) : Option (Pool α) := if size ≤ maxSize then some (idle size) else none

/-- The number of slots that are taken. -/
def inUse (p : Pool α) : Nat := p.running.length

/-- The number of slots that are free. -/
def available (p : Pool α) : Nat := p.size - p.running.length

/-- A job submitted. -/
def submit (p : Pool α) (job : α) : Pool α × Admission :=
  if !p.isOpen then (p, .refused)
  else if p.running.length < p.size then ({ p with running := p.running ++ [job] }, .started)
  else ({ p with line := p.line ++ [job] }, .queued)

/-- The pool once a job has ended, and the job that starts in its place. -/
def release [BEq α] (p : Pool α) (job : α) : Pool α × Option α :=
  let running := p.running.erase job
  match p.line with
  | next :: line =>
    if running.length < p.size then
      ({ p with running := running ++ [next], line }, some next)
    else ({ p with running }, none)
  | [] => ({ p with running }, none)

/-- The pool closed, and the jobs that are turned away. -/
def close (p : Pool α) : Pool α × List α :=
  ({ p with line := [], isOpen := false }, p.line)

end Pool

end Correlator
