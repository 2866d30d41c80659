import Overseer.Warning

/-!
Exit watchers: each follows one process and calls back once when it is gone. Subscribing takes two
looks at the process, a look-up and a check of what was found, and the process may end before,
between or after them.
-/
namespace Overseer

/-- What the system knows of a process id: a process that ended is there until it is collected. -/
inductive Presence where
  | alive
  | ended
  | absent
  deriving DecidableEq, Repr

/-- The processes of the system. An id that is in neither list belongs to none. -/
structure Processes where
  living : List UInt32
  uncollected : List UInt32 := []
  deriving DecidableEq, Repr

/-- Zero and ids past the positive range of 32 bits never name a process. -/
def isProcessId (pid : UInt32) : Bool :=
  0 < pid && pid < 0x80000000

namespace Processes

def presence (processes : Processes) (pid : UInt32) : Presence :=
  if !isProcessId pid then .absent
  else if processes.living.contains pid then .alive
  else if processes.uncollected.contains pid then .ended
  else .absent

def isAlive (processes : Processes) (pid : UInt32) : Bool :=
  processes.presence pid = .alive

def kill (processes : Processes) (pid : UInt32) : Processes :=
  if processes.living.contains pid then
    ⟨processes.living.filter (· ≠ pid), pid :: processes.uncollected⟩
  else processes

/-- Collects a process that ended, so that its id belongs to none. -/
def reap (processes : Processes) (pid : UInt32) : Processes :=
  { processes with uncollected := processes.uncollected.filter (· ≠ pid) }

end Processes

namespace Watcher

/-- How often a process is looked at where its end cannot be waited for, in milliseconds. -/
def pollInterval : Nat := 250

inductive Lookup where
  | found
  | missing
  | unobservable (cause : SystemError)
  deriving DecidableEq, Repr

/-- The look-up in a system that may be out of file descriptors, which are only needed for a process
that is there. -/
def Lookup.inSystem (processes : Processes) (exhausted : Bool) (pid : UInt32) : Lookup :=
  match processes.presence pid with
  | .absent => .missing
  | _ => if exhausted then .unobservable (.errno .tooManyOpenFiles) else .found

inductive Phase where
  | checking
  | waiting
  | finished
  deriving DecidableEq, Repr

end Watcher

/-- A watcher is done once it called back or was dropped. -/
structure Watcher where
  pid : UInt32
  phase : Watcher.Phase
  fired : Bool
  deriving DecidableEq, Repr

namespace Watcher

inductive Effect where
  | call (pid : UInt32)
  | warn (w : Warning)
  deriving DecidableEq, Repr

def fire (w : Watcher) : Watcher × List Effect :=
  if w.fired then ({ w with phase := .finished }, [])
  else ({ w with phase := .finished, fired := true }, [.call w.pid])

/-- A process that cannot be observed counts as gone. -/
def lookUp (pid : UInt32) : Lookup → Watcher × List Effect
  | .found => (⟨pid, .checking, false⟩, [])
  | .missing => fire ⟨pid, .checking, false⟩
  | .unobservable cause =>
    let (w, effects) := fire ⟨pid, .checking, false⟩
    (w, .warn (.unobservable cause) :: effects)

def check (w : Watcher) (gone : Bool) : Watcher × List Effect :=
  match w.phase with
  | .checking => if gone then w.fire else ({ w with phase := .waiting }, [])
  | _ => (w, [])

def wake (w : Watcher) : Watcher × List Effect :=
  match w.phase with
  | .waiting => w.fire
  | _ => (w, [])

def drop (w : Watcher) : Watcher :=
  { w with phase := .finished }

/-- The look-up and the check, while the processes stay as they are. -/
def watch (processes : Processes) (exhausted : Bool) (pid : UInt32) : Watcher × List Effect :=
  let (w, effects) := lookUp pid (.inSystem processes exhausted pid)
  let (w, more) := w.check !(processes.isAlive pid)
  (w, effects ++ more)

end Watcher

end Overseer
