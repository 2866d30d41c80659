import Overseer.Duration
import Overseer.ProcessInfo
import Overseer.Settings
import Overseer.Warning

/-!
The supervisor of one process at a time. All that happens to it is an operation: a start, a stop,
the report that a process ended, the escalation of a stop that took too long. Operations are
performed one after the other; each moves along the table of the lifecycle or is refused by it. What
an operation does to the world is a list of effects.
-/
namespace Overseer

/-- The hold on a process that was launched. It outlives the process, until the next launch. -/
structure Handle where
  pid : UInt32
  /-- The process ended and its exit code was collected. -/
  collected : Bool := false
  deriving DecidableEq, Repr

/-- A stop that first asks the process to exit. -/
structure CooperativeStop where
  pid : UInt32
  /-- The time to ask, and again the time to exit. -/
  limit : Duration
  deriving DecidableEq, Repr

structure Change where
  source : State
  target : State
  deriving DecidableEq, Repr

structure Supervisor where
  settings : Settings
  state : State := .notStarted
  handle : Option Handle := none
  info : Option ProcessInfo := none
  /-- The current or last process was killed by its supervisor. -/
  killed : Bool := false
  startError : Option StartError := none
  /-- A cooperative stop that began and was not yet given to whoever asked for it. -/
  cooperativeStop : Option CooperativeStop := none
  deriving DecidableEq, Repr

namespace Supervisor

inductive Effect where
  | broadcast (change : Change)
  /-- Asks for a process to be killed; in vain if it was collected. -/
  | kill (pid : UInt32) (delivered : Bool)
  | begin (stop : CooperativeStop)
  /-- Whoever asked for the stop waits for this one. -/
  | await (stop : CooperativeStop)
  | warn (w : Warning)
  deriving DecidableEq, Repr

inductive Operation where
  /-- A start, and what its launch comes to if there is one. -/
  | start (launched : Except SystemError UInt32)
  | stop (timeout : Option Duration)
  | exited (pid : UInt32) (code : Int32)
  | escalate (pid : UInt32)
  deriving Repr

def context (s : Supervisor) : Lifecycle.Context :=
  ⟨s.killed, s.info.bind ProcessInfo.exitCode⟩

def permits (s : Supervisor) (t : Trigger) : Bool :=
  (Lifecycle.next s.state t s.context).isSome

/-- Moves to the state that the table gives and goes on there, or is refused and nothing happens. -/
def fire (s : Supervisor) (t : Trigger) (onward : Supervisor → Supervisor × List Effect) :
    Supervisor × List Effect :=
  match Lifecycle.next s.state t s.context with
  | none => (s, [.warn (.notPermitted s.state t)])
  | some target =>
    let (s', effects) := onward { s with state := target }
    (s', .broadcast ⟨s.state, target⟩ :: effects)

def failStart (s : Supervisor) (cause : SystemError) : Supervisor × List Effect :=
  s.fire .startError fun s =>
    ({ s with handle := none, info := none, startError := some ⟨s.settings.program, cause⟩ }, [])

/-- Whatever was known of an earlier process is forgotten. -/
def launch (s : Supervisor) (launched : Except SystemError UInt32) : Supervisor × List Effect :=
  let s := { s with killed := false, startError := none, handle := none, info := none }
  match launched with
  | .ok pid => ({ s with handle := some { pid }, info := some { id := pid } }, [])
  | .error cause =>
    let (s, effects) := s.failStart cause
    (s, .warn .startFailed :: effects)

def start (s : Supervisor) (launched : Except SystemError UInt32) : Supervisor × List Effect :=
  s.fire .start fun s => s.launch launched

def kill (s : Supervisor) (h : Handle) : Supervisor × List Effect :=
  ({ s with killed := true },
    .kill h.pid (!h.collected) :: if h.collected then [.warn .alreadyEnded] else [])

/-- The time that a timeout leaves for cooperation. Without a timeout, or with one of no length,
there is none. -/
def limit? (timeout : Option Duration) : Option Duration :=
  timeout.filter fun d => d ≠ Duration.zero

def beginStop (s : Supervisor) (timeout : Option Duration) : Supervisor × List Effect :=
  match s.handle with
  | none => (s, [])
  | some h =>
    match limit? timeout with
    | none => s.kill h
    | some limit =>
      let stop : CooperativeStop := ⟨h.pid, limit⟩
      ({ s with cooperativeStop := some stop }, [.begin stop])

def handOver (s : Supervisor) : Supervisor × List Effect :=
  ({ s with cooperativeStop := none }, s.cooperativeStop.toList.map .await)

def stop (s : Supervisor) (timeout : Option Duration) : Supervisor × List Effect :=
  let (s, effects) := s.fire .stop fun s => s.beginStop timeout
  let (s, more) := s.handOver
  (s, effects ++ more)

/-- The exit of a process that has been replaced is of no interest. -/
def reportExit (s : Supervisor) (pid : UInt32) (code : Int32) : Supervisor × List Effect :=
  match s.info with
  | none => (s, [])
  | some info =>
    if info.id = pid then
      { s with info := some { info with exitCode := some code } }.fire .processExit fun s => (s, [])
    else (s, [])

/-- Kills a process that is still being stopped, and no other. -/
def escalate (s : Supervisor) (pid : UInt32) : Supervisor × List Effect :=
  match s.handle with
  | none => (s, [])
  | some h => if s.state = .stopping ∧ h.pid = pid then s.kill h else (s, [])

def perform (s : Supervisor) : Operation → Supervisor × List Effect
  | .start launched => s.start launched
  | .stop timeout => s.stop timeout
  | .exited pid code => s.reportExit pid code
  | .escalate pid => s.escalate pid

def execute (s : Supervisor) : List Operation → Supervisor × List Effect
  | [] => (s, [])
  | op :: ops =>
    let (s, effects) := s.perform op
    let (s, more) := s.execute ops
    (s, effects ++ more)

/-- The exit code of a process was collected; its exit is reported by an operation later on. -/
def collect (s : Supervisor) (pid : UInt32) : Supervisor :=
  { s with handle := s.handle.map fun h => if h.pid = pid then { h with collected := true } else h }

/-- Gives up the process, which is killed without being marked so. -/
def drop (s : Supervisor) : Supervisor × List Effect :=
  match s.handle with
  | none => (s, [])
  | some h => ({ s with handle := none }, [.kill h.pid (!h.collected)])

def changesOf (effects : List Effect) : List Change :=
  effects.filterMap fun
    | .broadcast c => some c
    | _ => none

def warningsOf (effects : List Effect) : List Warning :=
  effects.filterMap fun
    | .warn w => some w
    | _ => none

def killsOf (effects : List Effect) : List UInt32 :=
  effects.filterMap fun
    | .kill pid _ => some pid
    | _ => none

def begunOf (effects : List Effect) : List CooperativeStop :=
  effects.filterMap fun
    | .begin stop => some stop
    | _ => none

def awaitedOf (effects : List Effect) : List CooperativeStop :=
  effects.filterMap fun
    | .await stop => some stop
    | _ => none

end Supervisor

end Overseer
