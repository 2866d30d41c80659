import Overseer.Child
import Overseer.Launch
import Overseer.Shutdown.Directory
import Overseer.Supervisor.Stopping

/-!
A supervisor at work: the process that it launched last, the cooperative stops that are under way,
and the time. Operations run as soon as they are asked for. Everything that can happen at a moment
happens before time passes.
-/
namespace Overseer

namespace Supervision

def changeCapacity : Nat := 64

def lineCapacity : Nat := 1024

inductive Notice where
  | change (c : Change)
  | output (line : String)
  | error (line : String)
  | warning (w : Warning)
  deriving DecidableEq, Repr

def changesOf (notices : List Notice) : List Change :=
  notices.filterMap fun
    | .change c => some c
    | _ => none

def outputOf (notices : List Notice) : List String :=
  notices.filterMap fun
    | .output line => some line
    | _ => none

def errorsOf (notices : List Notice) : List String :=
  notices.filterMap fun
    | .error line => some line
    | _ => none

def warningsOf (notices : List Notice) : List Warning :=
  notices.filterMap fun
    | .warning w => some w
    | _ => none

end Supervision

structure Supervision where
  supervisor : Supervisor
  system : Launch.System
  /-- The supervisor's own process id and environment. -/
  self : UInt32 := 1
  environment : Environment := .empty
  /-- What the next process plays. -/
  script : Child.Script := {}
  child : Option Child := none
  stops : List Supervisor.Stopping := []
  now : Nat := 0
  nextPid : UInt32 := 100
  /-- The supervisor is gone: no operation begins any more. -/
  dropped : Bool := false
  /-- Not seen yet, oldest first. -/
  notices : List Supervision.Notice := []

namespace Supervision

def note (v : Supervision) (notices : List Notice) : Supervision :=
  { v with notices := v.notices ++ notices }

def setChild (v : Supervision) (c : Child) : Supervision :=
  { v with child := some c }

/-- Standard error is only read if the settings say so. -/
def complaints (v : Supervision) (lines : List String) : List Notice :=
  if v.supervisor.settings.captureStderr then lines.map .error else []

def writeOutput (v : Supervision) (c : Child) (bytes : List UInt8) : Supervision :=
  let (lines, c) := c.write bytes
  (v.setChild c).note (lines.map .output)

def writeErrors (v : Supervision) (c : Child) (bytes : List UInt8) : Supervision :=
  let (lines, c) := c.complain bytes
  (v.setChild c).note (v.complaints lines)

/-- A process that begins writes to both streams and is ready for requests then. -/
def startUp (v : Supervision) (c : Child) : Supervision :=
  let v := v.writeOutput { c with phase := .ready } (Child.opening c.script c.surroundings)
  match v.child with
  | none => v
  | some c => v.writeErrors c c.script.stderr

def awaken (v : Supervision) : Supervision :=
  match v.child with
  | none => v
  | some c => if c.phase = .begun then v.startUp c else v

def windUp (v : Supervision) (c : Child) : Supervision :=
  let v := v.writeOutput c c.script.lateStdout
  match v.child with
  | none => v
  | some c => v.setChild (c.finish c.script.exitCode v.now)

def signal (v : Supervision) (pid : UInt32) (number : Nat) : Supervision :=
  match v.child with
  | none => v
  | some c => if c.pid = pid then v.setChild (c.finish (Child.codeOfSignal number) v.now) else v

def apply (v : Supervision) : Supervisor.Effect → Supervision
  | .broadcast c => v.note [.change c]
  | .kill pid delivered => if delivered then v.signal pid Child.killSignal else v
  | .begin stop => { v with stops := v.stops ++ [⟨stop, v.now, .asking⟩] }
  | .await _ => v
  | .warn w => v.note [.warning w]

def perform (v : Supervision) (op : Supervisor.Operation) : Supervision :=
  if v.dropped then v
  else
    let (supervisor, effects) := v.supervisor.perform op
    effects.foldl apply { v with supervisor }

def launchResult (v : Supervision) : Except SystemError UInt32 :=
  match Launch.error? v.system v.supervisor.settings.command with
  | some e => .error e
  | none => .ok v.nextPid

def overrideAll (e : Environment) : List Variable → Environment
  | [] => e
  | v :: rest => overrideAll (e.insert v.1 v.2) rest

def spawned (v : Supervision) : Child :=
  let command := v.supervisor.settings.command
  { pid := v.nextPid
    script := v.script
    surroundings :=
      { arguments := command.arguments
        environment := (overrideAll v.environment command.environment).entries
        directory := Launch.directoryOf v.system command
        parent := v.self } }

def start (v : Supervision) : Supervision :=
  if v.dropped || !v.supervisor.permits .start then v.perform (.start v.launchResult)
  else
    match v.launchResult with
    | .error e => v.perform (.start (.error e))
    | .ok pid =>
      { v.perform (.start (.ok pid)) with child := some v.spawned, nextPid := v.nextPid + 1 }

def stop (v : Supervision) (timeout : Option Duration) : Supervision :=
  v.perform (.stop timeout)

/-- Drops the supervisor, which gives up its process. -/
def drop (v : Supervision) : Supervision :=
  let (supervisor, effects) := v.supervisor.drop
  { effects.foldl apply { v with supervisor } with dropped := true }

/-- The exit of the process is reported once its lines are out. -/
def report (v : Supervision) (c : Child) (code : Int32) : Supervision :=
  let v := v.setChild { c with phase := .reported }
  let v := v.note (c.lastLines.map .output ++ v.complaints c.errors.finish)
  { v with supervisor := v.supervisor.collect c.pid }.perform (.exited c.pid code)

def childStep? (v : Supervision) : Option Supervision :=
  match v.child with
  | none => none
  | some c =>
    match c.phase with
    | .begun => some (v.startUp c)
    | .ended code due => if due ≤ v.now then some (v.report c code) else none
    | .ready | .reported => none

/-- The process acknowledges the request of a stop, and may end for it. -/
def answer (v : Supervision) (c : Child) : Supervision :=
  match c.script.manner with
  | .exits => v.windUp c
  | .deaf | .ignores => v

def temporaryFor (v : Supervision) (origin : FileTree.Place) (environment : List Variable) :
    Option FileTree.Place :=
  Shutdown.temporaryPlace v.system.files origin
    (Child.valueOf environment Shutdown.temporaryVariable)

def hears (v : Supervision) (c : Child) : Bool :=
  c.script.manner ≠ .deaf &&
    v.temporaryFor (FileTree.names c.surroundings.directory) c.surroundings.environment =
      v.temporaryFor v.system.origin v.environment.entries

def isAnswered (v : Supervision) (s : Supervisor.Stopping) : Bool :=
  s.phase = .asking &&
    v.child.any fun c => c.pid = s.stop.pid && c.phase = .ready && v.hears c

def act (v : Supervision) : Supervisor.Stopping.Effect → Supervision
  | .warn w => v.note [.warning w]
  | .escalate pid => v.perform (.escalate pid)

def tell (v : Supervision) (index : Nat) (s : Supervisor.Stopping)
    (e : Supervisor.Stopping.Event) : Supervision :=
  let (s, effects) := s.step v.now e
  let stops := if s.isFinished then v.stops.eraseIdx index else v.stops.set index s
  effects.foldl act { v with stops }

/-- The next thing that happens to a stop now. -/
def stopStep? (v : Supervision) (index : Nat) (s : Supervisor.Stopping) : Option Supervision :=
  match s.phase with
  | .finished => none
  | .waiting _ =>
    if v.supervisor.state.isExited then some (v.tell index s (.seen v.supervisor.state))
    else if s.isOverdue v.now then some (v.tell index s .passed)
    else none
  | .asking =>
    if v.isAnswered s then
      let v := v.tell index s .answered
      match v.child with
      | none => some v
      | some c => some (v.answer c)
    else if s.isOverdue v.now then some (v.tell index s .passed)
    else if s.giveUp?.any fun due => due ≤ v.now then some (v.tell index s .answered)
    else none

def firstStop? (v : Supervision) : Nat → List Supervisor.Stopping → Option Supervision
  | _, [] => none
  | index, s :: rest => v.stopStep? index s <|> v.firstStop? (index + 1) rest

def step? (v : Supervision) : Option Supervision :=
  v.childStep? <|> v.firstStop? 0 v.stops

/-- A bound on the steps that are left: a stop is answered and finished, a process begins, ends and
is reported. -/
def weight (v : Supervision) : Nat :=
  2 * v.stops.length + 3

def stepMany : Nat → Supervision → Supervision
  | 0, v => v
  | fuel + 1, v =>
    match v.step? with
    | none => v
    | some v => stepMany fuel v

def settle (v : Supervision) : Supervision :=
  stepMany v.weight v

def childDue? (v : Supervision) : Option Nat :=
  v.child.bind fun c =>
    match c.phase with
    | .ended _ due => some due
    | _ => none

def due? (v : Supervision) : Option Nat :=
  (v.childDue?.toList ++ v.stops.filterMap (fun s => s.deadline?) ++
    v.stops.filterMap fun s => s.giveUp?).min?

/-- Lets time pass as long as something is due and not past the target, or until it is enough. -/
def advanceTo (target : Option Nat) (enough : Supervision → Bool) :
    Nat → Supervision → Supervision
  | 0, v => v
  | fuel + 1, v =>
    let v := v.settle
    if enough v then v
    else
      let ended : Supervision := { v with now := max v.now (target.getD v.now) }
      match v.due? with
      | none => ended
      | some due =>
        if target.any fun t => t < due then ended
        else advanceTo target enough fuel { v with now := max v.now due }

def advance (v : Supervision) (ms : Nat) : Supervision :=
  (advanceTo (some (v.now + ms)) (fun _ => false) (v.weight + 1) v).settle

def await (v : Supervision) (enough : Supervision → Bool) : Supervision :=
  advanceTo none enough (v.weight + 1) v

end Supervision

end Overseer
