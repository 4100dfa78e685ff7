/-!
# Gates

Named gates at which tasks wait. A gate lets one task through for each pass, in the order in which
they came, and keeps the passes that nobody waits for.

* `Gates.arrive`: a task that comes to a gate, and whether it goes right through.
* `Gates.release`: passes for a gate, and the tasks that go through with them.
-/

namespace Correlator

/-- The passes of each gate, and the tasks that wait, in the order in which they came. -/
structure Gates (α : Type) where
  passes : List (String × Nat)
  waiting : List (String × α)
  deriving Repr

namespace Gates

/-- No passes, and nobody waits. -/
def empty : Gates α := ⟨[], []⟩

instance : Inhabited (Gates α) := ⟨empty⟩

/-- The passes that a gate has kept. -/
def spare (g : Gates α) (gate : String) : Nat := (g.passes.lookup gate).getD 0

/-- The gates with so many passes kept for one of them. -/
def keep (g : Gates α) (gate : String) (n : Nat) : Gates α :=
  { g with passes := (gate, n) :: g.passes.filter fun (gate', _) => gate' != gate }

/-- A task comes to a gate: it goes right through if there is a pass, or else waits. -/
def arrive (g : Gates α) (gate : String) (task : α) : Gates α × Bool :=
  match g.spare gate with
  | n + 1 => (g.keep gate n, true)
  | 0 => ({ g with waiting := g.waiting ++ [(gate, task)] }, false)

/-- The first task that waits at a gate, and the others. -/
def takeFirst (gate : String) : List (String × α) → Option (α × List (String × α))
  | [] => none
  | (gate', task) :: rest =>
    if gate' = gate then some (task, rest)
    else (takeFirst gate rest).map fun (found, rest) => (found, (gate', task) :: rest)

/-- Passes for a gate, and the tasks that go through. -/
def release (g : Gates α) (gate : String) : Nat → Gates α × List α
  | 0 => (g, [])
  | n + 1 =>
    match takeFirst gate g.waiting with
    | some (task, waiting) =>
      let (g, tasks) := release { g with waiting } gate n
      (g, task :: tasks)
    | none => (g.keep gate (g.spare gate + n + 1), [])

end Gates

end Correlator
