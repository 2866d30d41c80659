import Overseer.Broadcast
import Overseer.CommandLine.Log
import Overseer.Duration

/-!
What `run` does while its program runs: it passes on the lines that it receives, whichever stream
has one, and asks for a stop when it is interrupted. Once the program is gone it passes on what is
left, line by line, first of the one stream and then of the other, and ends.
-/
namespace Overseer.CommandLine

open Broadcast

inductive Source where
  | output
  | errors
  deriving DecidableEq, Repr

namespace Forwarding

/-- What is ready and was picked. -/
inductive Branch where
  | output
  | errors
  | interrupt
  /-- The supervisor is in a state in which nothing more happens by itself. -/
  | ended
  /-- Takes one more of the lines that are left. -/
  | drain
  deriving DecidableEq, Repr

inductive Effect where
  | print (line : String)
  | complain (line : String)
  | stop (timeout : Option Duration)
  | log (e : Log.Entry)
  deriving DecidableEq, Repr

inductive Stage where
  | looping
  | draining (s : Source)
  | finished
  deriving DecidableEq, Repr

end Forwarding

namespace Source

open Forwarding (Effect Stage)

def pass : Source → String → Effect
  | .output => .print
  | .errors => .complain

def warning : Source → Nat → Log.Entry
  | .output => .outputDropped
  | .errors => .errorsDropped

def after : Source → Stage × List Effect
  | .output => (.draining .errors, [])
  | .errors => (.finished, [.log .finished])

end Source

structure Forwarding where
  stopTimeout : Duration
  output : Receiver String
  errors : Receiver String
  /-- Counts no further than the greatest byte. -/
  interrupts : Nat := 0
  stage : Forwarding.Stage := .looping
  deriving DecidableEq, Repr

namespace Forwarding

def receiver (f : Forwarding) : Source → Receiver String
  | .output => f.output
  | .errors => f.errors

def setReceiver (f : Forwarding) (r : Receiver String) : Source → Forwarding
  | .output => { f with output := r }
  | .errors => { f with errors := r }

def hear (f : Forwarding) (output errors : List String) : Forwarding :=
  { f with output := f.output.push output, errors := f.errors.push errors }

/-- The first interrupt leaves time to exit, the next ones leave none. -/
def timeoutOf (f : Forwarding) (interrupts : Nat) : Option Duration :=
  if 1 < interrupts then none else some f.stopTimeout

def receive (f : Forwarding) (s : Source) : Forwarding × List Effect :=
  match (f.receiver s).receive? with
  | none => (f, [])
  | some (.item line, r) => (f.setReceiver r s, [s.pass line])
  | some (.missed n, r) => (f.setReceiver r s, [.log (s.warning n)])

def interrupt (f : Forwarding) : Forwarding × List Effect :=
  let interrupts := min 255 (f.interrupts + 1)
  let timeout := f.timeoutOf interrupts
  ({ f with interrupts },
    [.log (if timeout.isNone then .interruptedKilling else .interruptedStopping), .stop timeout])

/-- Whatever is no line, also that some were missed, is taken for the end of what is left. -/
def drain (f : Forwarding) (s : Source) : Forwarding × List Effect :=
  match (f.receiver s).receive? with
  | some (.item line, r) => (f.setReceiver r s, [s.pass line])
  | some (.missed _, r) => ({ f.setReceiver r s with stage := s.after.1 }, s.after.2)
  | none => ({ f with stage := s.after.1 }, s.after.2)

/-- The loop picks what is ready until it ends. From then on nothing is done but to drain. -/
def advance (f : Forwarding) (b : Branch) : Forwarding × List Effect :=
  match f.stage, b with
  | .looping, .output => f.receive .output
  | .looping, .errors => f.receive .errors
  | .looping, .interrupt => f.interrupt
  | .looping, .ended => ({ f with stage := .draining .output }, [])
  | .draining s, .drain => f.drain s
  | _, _ => (f, [])

def offers (f : Forwarding) (b : Branch) : Bool :=
  match f.stage with
  | .looping => b ≠ .drain
  | .draining _ => b = .drain
  | .finished => false

def execute (f : Forwarding) : List Branch → Forwarding × List Effect
  | [] => (f, [])
  | b :: branches =>
    let (f, effects) := f.advance b
    let (f, more) := f.execute branches
    (f, effects ++ more)

def pending (f : Forwarding) : List Branch :=
  f.output.receipts.map (fun _ => .output) ++ f.errors.receipts.map fun _ => .errors

def leave (f : Forwarding) : List Branch :=
  .ended :: List.replicate (f.output.held.length + f.errors.held.length + 2) .drain

end Forwarding

/-- The exit code of the program as the exit code of `run`: as it is if it fits into a byte. -/
def passOn (code : Int32) : UInt8 :=
  if 0 ≤ code.toInt ∧ code.toInt ≤ 255 then code.toInt.toNat.toUInt8 else 1

end Overseer.CommandLine
