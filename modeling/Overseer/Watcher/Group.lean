import Overseer.Watcher

/-!
Several watchers of one process, numbered in the order in which they were made, and the calls that
they have made so far.
-/
namespace Overseer.Watcher

structure Group where
  processes : Processes
  pid : UInt32
  /-- None in the place of a watcher that was dropped. -/
  watchers : List (Option Watcher) := []
  /-- The number of each watcher that called, in increasing order, and the id it passed on. -/
  calls : List (Nat × UInt32) := []
  deriving DecidableEq, Repr

namespace Group

inductive Step where
  | watch (exhausted : Bool)
  | kill
  | reap
  | drop (index : Nat)
  | check
  deriving DecidableEq, Repr

structure Outcome where
  result : Option Bool := none
  warnings : List Warning := []
  deriving DecidableEq, Repr

def record (index : Nat) (pid : UInt32) : List (Nat × UInt32) → List (Nat × UInt32)
  | [] => [(index, pid)]
  | call :: calls =>
    if call.1 < index then call :: record index pid calls else (index, pid) :: call :: calls

def note (g : Group) (index : Nat) : List Effect → Group
  | [] => g
  | .call pid :: effects => note { g with calls := record index pid g.calls } index effects
  | .warn _ :: effects => note g index effects

def warningsOf (effects : List Effect) : List Warning :=
  effects.filterMap fun
    | .warn w => some w
    | .call _ => none

def wakeFrom (g : Group) (index : Nat) : List (Option Watcher) → Group
  | [] => g
  | none :: rest => wakeFrom g (index + 1) rest
  | some w :: rest =>
    let (w', effects) := w.wake
    let g' := { g with watchers := g.watchers.set index (some w') }
    wakeFrom (g'.note index effects) (index + 1) rest

/-- Every watcher whose process is gone calls back before anything else happens. -/
def settle (g : Group) : Group :=
  if g.processes.isAlive g.pid then g else wakeFrom g 0 g.watchers

def step (g : Group) : Step → Group × Outcome
  | .watch exhausted =>
    let (w, effects) := Watcher.watch g.processes exhausted g.pid
    let g' := { g with watchers := g.watchers ++ [some w] }
    (g'.note g.watchers.length effects, ⟨some w.fired, warningsOf effects⟩)
  | .kill => ({ g with processes := g.processes.kill g.pid }.settle, {})
  | .reap => ({ g with processes := g.processes.reap g.pid }, {})
  | .drop index => ({ g with watchers := g.watchers.set index none }, {})
  | .check => (g, {})

def execute (g : Group) : List Step → List (Group × Outcome)
  | [] => []
  | s :: steps => g.step s :: (g.step s).1.execute steps

end Group

end Overseer.Watcher
