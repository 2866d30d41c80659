import Overseer.Parent
import Overseer.Watcher

/-!
The parent monitor: it resolves the parent's id, watches that process and calls back once it is
gone, with the id, or at once without an id if an unknown parent counts as gone.
-/
namespace Overseer.Parent

inductive Missing where
  | ignore
  | exit
  deriving DecidableEq, Repr

structure Monitor where
  pid : Option UInt32
  watcher : Option Watcher
  /-- What the callback was given each time it was called. -/
  calls : List (Option UInt32)
  deriving DecidableEq, Repr

namespace Monitor

def parentExited (m : Monitor) : Bool :=
  m.watcher.any Watcher.fired

def callsOf (effects : List Watcher.Effect) : List (Option UInt32) :=
  effects.filterMap fun
    | .call pid => some (some pid)
    | .warn _ => none

def warningsOf (effects : List Watcher.Effect) : List Warning :=
  effects.filterMap fun
    | .warn w => some w
    | .call _ => none

def start (processes : Processes) (missing : Missing) (r : Resolution) :
    Monitor × List Warning :=
  match r.pid with
  | none =>
    match missing with
    | .ignore => (⟨none, none, []⟩, r.warnings ++ [.unknownParent])
    | .exit => (⟨none, none, [none]⟩, r.warnings)
  | some pid =>
    let (w, effects) := Watcher.watch processes false pid
    (⟨some pid, some w, callsOf effects⟩, r.warnings ++ warningsOf effects)

def settle (processes : Processes) (m : Monitor) : Monitor :=
  match m.watcher with
  | none => m
  | some w =>
    if processes.isAlive w.pid then m
    else
      let (w', effects) := w.wake
      { m with watcher := some w', calls := m.calls ++ callsOf effects }

end Monitor

end Overseer.Parent
