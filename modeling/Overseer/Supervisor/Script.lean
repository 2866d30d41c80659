import Overseer.Broadcast
import Overseer.Lifecycle.Diagram
import Overseer.Supervisor.World

/-!
Scripts for a supervisor, and what can be seen of it after each step: what happened meanwhile, how
it is left, and the lines received once its process is gone.
-/
namespace Overseer.Supervision

inductive Call where
  | start
  | stop (timeout : Option Duration)
  deriving DecidableEq, Repr

inductive Step where
  /-- Sets the script of this process and the next ones. The text is waited for as the beginning of
  a line. -/
  | start (script : Option Child.Script) (expected : Option String) (starved : Bool)
  | stop (timeout : Option Duration) (detached : Bool)
  /-- Makes all calls before any of them is waited for; the supervisor may be dropped at once. -/
  | batch (calls : List Call) (dropping : Bool)
  /-- Tells the process to end. -/
  | go
  | signal (number : Nat)
  | watchState (id : String) (state : State)
  | watchOutput (id : String) (beginning : String)
  | drop
  | check
  | sleep (ms : Nat)
  | diagram
  deriving Repr

inductive Result where
  | none
  | flag (b : Bool)
  | flags (l : List Bool)
  | text (s : String)
  deriving DecidableEq, Repr

/-- What somebody waits for: a change to a state, or a line of output that begins so. -/
inductive Awaited where
  | state (s : State)
  | output (beginning : String)
  deriving DecidableEq, Repr

namespace Awaited

def hears : Awaited → Notice → Bool
  | .state _, .change _ | .output _, .output _ => true
  | _, _ => false

def isMet : Awaited → Notice → Bool
  | .state s, .change c => c.target = s
  | .output beginning, .output line => line.startsWith beginning
  | _, _ => false

def capacity : Awaited → Nat
  | .state _ => changeCapacity
  | .output _ => lineCapacity

end Awaited

structure Watch where
  awaited : Awaited
  waiter : Broadcast.Waiter Notice

namespace Watch

/-- Subscribes, so that what is sent from now on counts. -/
def begin (awaited : Awaited) : Watch :=
  ⟨awaited, ⟨awaited.isMet, ⟨awaited.capacity, [], 0⟩, none⟩⟩

def outcome (w : Watch) : Option Bool := w.waiter.outcome

def hear (w : Watch) (notices : List Notice) : Watch :=
  { w with waiter := w.waiter.hear (notices.filter w.awaited.hears) }

def look (w : Watch) : Watch :=
  { w with waiter := w.waiter.look }

def giveUp (w : Watch) (gone : Bool) : Watch :=
  { w with waiter := w.waiter.giveUp gone }

def poll (w : Watch) (gone : Bool) : Watch :=
  { w with waiter := w.waiter.poll gone }

end Watch

structure Stage where
  supervision : Supervision
  output : Broadcast.Receiver String := ⟨lineCapacity, [], 0⟩
  errors : Broadcast.Receiver String := ⟨lineCapacity, [], 0⟩
  watches : List (String × Watch) := []

structure Status where
  state : State
  killed : Bool
  info : Option ProcessInfo
  startError : Option StartError
  /-- What came on the two streams, unless there is a process. -/
  lines : Option (List (Broadcast.Receipt String) × List (Broadcast.Receipt String))
  deriving DecidableEq, Repr

structure View where
  result : Result
  changes : List Change
  watches : List (String × Option Bool)
  warnings : List Warning
  status : Option Status
  deriving DecidableEq, Repr

def isLive (v : Supervision) : Bool := v.supervisor.state.isLive

def isExited (v : Supervision) : Bool := v.supervisor.state.isExited

/-- None of the processes' stops is under way, and the state is not that of one. -/
def isQuiet (pids : List UInt32) (v : Supervision) : Bool :=
  v.supervisor.state ≠ .stopping && v.stops.all fun s => !pids.contains s.stop.pid

namespace Stage

def run (s : Stage) (f : Supervision → Supervision) : Stage :=
  { s with supervision := f s.supervision }

def watch (s : Stage) (id : String) (w : Watch) : Stage :=
  { s with watches := s.watches.filter (fun e => e.1 ≠ id) ++ [(id, w)] }

def start (v : Supervision) (script : Option Child.Script) (starved : Bool) : Supervision :=
  let v := { v with
    script := script.getD v.script
    system := { v.system with starved } }
  let v := v.start
  { v with system := { v.system with starved := false } }.awaken

def cameTrue (v : Supervision) (expected : String) : Bool :=
  (outputOf v.notices).any fun line => line.startsWith expected

def stopping (before after : Supervision) : List UInt32 :=
  (after.stops.drop before.stops.length).map fun s => s.stop.pid

def stop (v : Supervision) (timeout : Option Duration) : Supervision :=
  let called := v.stop timeout
  called.await (isQuiet (stopping v called))

def call (v : Supervision) : Call → Supervision
  | .start => v.start
  | .stop timeout => v.stop timeout

def batch (v : Supervision) (calls : List Call) : Supervision :=
  let called := calls.foldl call v
  called.await (isQuiet (stopping v called))

def endProcess (v : Supervision) (how : Supervision → Child → Supervision) : Supervision :=
  let v := v.settle
  match v.child with
  | some c => if c.isAlive then (how v c).await isExited else v.await isExited
  | none => v

def apply (s : Stage) : Step → Result × Stage
  | .start script expected starved =>
    let s := s.run fun v => start v script starved
    (.flag ((expected.map (cameTrue s.supervision)).getD true), s)
  | .stop timeout true => (.none, s.run fun v => v.stop timeout)
  | .stop timeout false => (.flag true, s.run fun v => stop v timeout)
  | .batch calls true => (.flags (calls.map fun _ => false), s.run drop)
  | .batch calls false => (.flags (calls.map fun _ => true), s.run fun v => batch v calls)
  | .go =>
    if s.supervision.isLive then (.flag true, s.run fun v => endProcess v windUp) else (.none, s)
  | .signal number =>
    if s.supervision.isLive then
      (.flag true, s.run fun v => endProcess v fun v c => v.signal c.pid number)
    else (.none, s)
  | .watchState id state => (.none, s.watch id (.begin (.state state)))
  | .watchOutput id beginning => (.none, s.watch id (.begin (.output beginning)))
  | .drop => (.flag true, s.run drop)
  | .check => (.none, s)
  | .sleep ms => (.none, s.run fun v => v.advance ms)
  | .diagram => (.text Lifecycle.diagram, s)

def absorb (s : Stage) : Stage :=
  let v := s.supervision
  { supervision := { v with notices := [] }
    output := s.output.push (outputOf v.notices)
    errors := s.errors.push (errorsOf v.notices)
    watches := s.watches.map fun e => (e.1, (e.2.hear v.notices).poll v.dropped) }

def status (s : Stage) : Status :=
  let v := s.supervision
  { state := v.supervisor.state
    killed := v.supervisor.killed
    info := v.supervisor.info
    startError := v.supervisor.startError
    lines := if v.isLive then none else some (s.output.receipts, s.errors.receipts) }

def view (s : Stage) (result : Result) : View × Stage :=
  let notices := s.supervision.notices
  let s := s.absorb
  let dropped := s.supervision.dropped
  let shown : View :=
    { result
      changes := if dropped then [] else changesOf notices
      watches := s.watches.map fun e => (e.1, e.2.outcome)
      warnings := warningsOf notices
      status := if dropped then Option.none else some s.status }
  (shown,
    if s.supervision.isLive then s
    else { s with output := s.output.emptied, errors := s.errors.emptied })

def execute (s : Stage) : List Step → List View
  | [] => []
  | e :: steps =>
    let (result, s) := s.apply e
    let (shown, s) := s.view result
    shown :: execute s steps

end Stage

end Overseer.Supervision
