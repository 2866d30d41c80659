import Overseer.Shutdown.Channel
import Overseer.Supervisor

/-!
How a cooperative stop goes on. The process is asked to exit, which may take as long as the limit.
From the answer on, be it yes or no, the process has the limit once more to exit. Whichever runs out
first leads to an escalation. Times are in milliseconds.
-/
namespace Overseer.Supervisor

namespace Stopping

inductive Phase where
  | asking
  | waiting (since : Nat)
  | finished
  deriving DecidableEq, Repr

inductive Event where
  /-- The request to exit was answered, or given up. -/
  | answered
  | seen (state : State)
  /-- Time has come this far and nothing else happened. -/
  | passed
  deriving DecidableEq, Repr

inductive Effect where
  | warn (w : Warning)
  | escalate (pid : UInt32)
  deriving DecidableEq, Repr

end Stopping

structure Stopping where
  stop : CooperativeStop
  began : Nat
  phase : Stopping.Phase := .asking
  deriving DecidableEq, Repr

namespace Stopping

def limit (s : Stopping) : Nat := s.stop.limit.toMillis

/-- When the phase is over by itself. -/
def deadline? (s : Stopping) : Option Nat :=
  match s.phase with
  | .asking => some (s.began + s.limit)
  | .waiting since => some (since + s.limit)
  | .finished => none

def giveUp? (s : Stopping) : Option Nat :=
  match s.phase with
  | .asking => some (s.began + Shutdown.connectLimit)
  | _ => none

def isOverdue (s : Stopping) (now : Nat) : Bool :=
  s.deadline?.any fun deadline => deadline ≤ now

def step (s : Stopping) (now : Nat) : Event → Stopping × List Effect
  | .answered =>
    match s.phase with
    | .asking => ({ s with phase := .waiting now }, [])
    | _ => (s, [])
  | .seen state =>
    match s.phase with
    | .waiting _ => if state.isExited then ({ s with phase := .finished }, []) else (s, [])
    | _ => (s, [])
  | .passed =>
    if s.isOverdue now then
      match s.phase with
      | .asking =>
        ({ s with phase := .finished }, [.warn .requestTimedOut, .escalate s.stop.pid])
      | .waiting _ =>
        ({ s with phase := .finished }, [.warn .exitTimedOut, .escalate s.stop.pid])
      | .finished => (s, [])
    else (s, [])

def isFinished (s : Stopping) : Bool := s.phase = .finished

end Stopping

end Overseer.Supervisor
