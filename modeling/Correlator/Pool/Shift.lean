import Correlator.Gates
import Correlator.Pool

/-!
# A shift of jobs

A pool with jobs that do nothing but wait at a gate, if they have one, and then end well or fail.
After every step the pool runs until nothing can move.

* `Shift.submit`, `Shift.release`, `Shift.close`: the steps.
* `Shift.started`, `Shift.finished`: the jobs that began and ended, in order.
-/

namespace Correlator

/-- A job: its name, the gate that it waits at, and whether it fails in the end. -/
structure Job where
  name : String
  gate? : Option String
  fails : Bool
  deriving DecidableEq, Repr, Inhabited

/-- How a job came to its end. -/
inductive JobEnd
  | done
  | failed
  | skipped
  deriving DecidableEq, Repr

/-- A pool with its jobs, which are known by their numbers. -/
structure Shift where
  pool : Pool Nat
  jobs : List Job
  gates : Gates Nat
  started : List Nat
  finished : List (Nat × JobEnd)
  deriving Repr

namespace Shift

/-- A pool without jobs. -/
def new? (size : Nat) : Option Shift :=
  (Pool.new? size).map fun pool => ⟨pool, [], .empty, [], []⟩

/-- The job of a number. -/
def job (s : Shift) (n : Nat) : Job := s.jobs[n]?.getD default

/-- A job ends; the one that starts in its place, if any, is to begin. -/
def finish (s : Shift) (n : Nat) : Shift × Option Nat :=
  let (pool, next?) := s.pool.release n
  ({ s with
      pool, finished := s.finished ++ [(n, if (s.job n).fails then .failed else .done)] }, next?)

/-- A job begins: it goes on at once, or waits at its gate. -/
def start (s : Shift) (n : Nat) : Shift × Bool :=
  let s := { s with started := s.started ++ [n] }
  match (s.job n).gate? with
  | none => (s, true)
  | some gate =>
    let (gates, through) := s.gates.arrive gate n
    ({ s with gates }, through)

/-- A job begins, and so does each job that comes after it in line, as long as they end at once;
`fuel` bounds the number of jobs that begin. -/
def runFrom (s : Shift) (n : Nat) : Nat → Shift
  | 0 => s
  | fuel + 1 =>
    match s.start n with
    | (s, false) => s
    | (s, true) =>
      match s.finish n with
      | (s, some next) => runFrom s next fuel
      | (s, none) => s

/-- A job submitted. -/
def submit (s : Shift) (job : Job) : Shift :=
  let n := s.jobs.length
  let (pool, admission) := s.pool.submit n
  let s := { s with pool, jobs := s.jobs ++ [job] }
  match admission with
  | .started => s.runFrom n (s.jobs.length + 1)
  | .queued => s
  | .refused => { s with finished := s.finished ++ [(n, .skipped)] }

/-- A job that was let through its gate ends, and those that come after it begin. -/
def passed (s : Shift) (n : Nat) : Shift :=
  match s.finish n with
  | (s, some next) => s.runFrom next (s.jobs.length + 1)
  | (s, none) => s

/-- Passes for a gate. -/
def release (s : Shift) (gate : String) (n : Nat) : Shift :=
  let (gates, through) := s.gates.release gate n
  through.foldl passed { s with gates }

/-- The pool closed. -/
def close (s : Shift) : Shift :=
  let (pool, skipped) := s.pool.close
  { s with pool, finished := s.finished ++ skipped.map fun n => (n, .skipped) }

end Shift

end Correlator
