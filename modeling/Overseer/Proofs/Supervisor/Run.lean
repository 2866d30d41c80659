import Overseer.Proofs.Supervisor.Operations

/-!
A supervisor that is not dropped yet, and all that may happen to it: operations, one after the other
and in any order, and exit codes that are collected in between. The exit of a process is reported
after its launch and once; nothing else is asked of a run.
-/
namespace Overseer.Supervisor

inductive Event where
  | perform (op : Operation)
  /-- The exit code of a process is collected. -/
  | collect (pid : UInt32)
  deriving Repr

structure Run where
  supervisor : Supervisor
  /-- Processes that were launched and whose exits are still to be reported. -/
  unreported : List UInt32 := []
  /-- What was done so far, in order. -/
  effects : List Effect := []

namespace Run

def fresh (settings : Settings) : Run := { supervisor := { settings } }

def unreportedAfter (r : Run) : Operation → List UInt32
  | .start (.ok pid) =>
    if r.supervisor.permits .start then r.unreported ++ [pid] else r.unreported
  | .exited pid _ => r.unreported.erase pid
  | _ => r.unreported

def advance (r : Run) : Event → Run
  | .perform op =>
    { supervisor := (r.supervisor.perform op).1
      unreported := r.unreportedAfter op
      effects := r.effects ++ (r.supervisor.perform op).2 }
  | .collect pid => { r with supervisor := r.supervisor.collect pid }

def admits (r : Run) : Event → Bool
  | .perform (.exited pid _) => r.unreported.contains pid
  | _ => true

theorem admits_congr {r u : Run} (unreported : r.unreported = u.unreported) (e : Event) :
    r.admits e = u.admits e := by
  cases e with
  | perform op => cases op <;> simp [admits, unreported]
  | collect pid => rfl

def execute (r : Run) : List Event → Run
  | [] => r
  | e :: events => (r.advance e).execute events

def admitsAll (r : Run) : List Event → Bool
  | [] => true
  | e :: events => r.admits e && (r.advance e).admitsAll events

/-- What every step keeps holds after every run. -/
theorem execute_induction {motive : Run → Prop} {r : Run} (start : motive r)
    (step : ∀ (r : Run) (e : Event), motive r → r.admits e = true → motive (r.advance e))
    (events : List Event) (admitted : r.admitsAll events = true) : motive (r.execute events) := by
  induction events generalizing r with
  | nil => exact start
  | cons e events ih =>
    obtain ⟨first, later⟩ : r.admits e = true ∧ (r.advance e).admitsAll events = true := by
      simpa [admitsAll] using admitted
    exact ih (step r e start first) later

end Run

end Overseer.Supervisor
