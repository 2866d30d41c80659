import Overseer.CommandLine.Forwarding
import Overseer.CommandLine.Invocation
import Overseer.Lifecycle.Diagram
import Overseer.Parent.Monitor
import Overseer.Shutdown.World
import Overseer.Supervisor.World

/-!
The program from its command line to its exit code. `run` supervises another program and passes on
its lines; `child` listens for requests to exit, watches its parent and ends after its lifetime;
`diagram` prints the table of the lifecycle. What it prints, what it logs and how it ends follow
from its surroundings and from what is done to it meanwhile.
-/
namespace Overseer.CommandLine

structure Surroundings where
  /-- Its own process id. -/
  self : UInt32
  environment : Environment
  system : Launch.System
  processes : Processes
  /-- What the program that can be run does. -/
  script : Child.Script

def Surroundings.lookup (s : Surroundings) (name : String) : Option String :=
  s.environment.entries.lookup name

def Surroundings.temporary (s : Surroundings) : String :=
  (s.lookup Shutdown.temporaryVariable).getD Shutdown.defaultTemporary

def Surroundings.withFiles (s : Surroundings) (files : FileTree) : Surroundings :=
  { s with system := { s.system with files } }

/-- What watches the parent of a process that runs `child`, when it has just begun. -/
def Surroundings.monitorFor (s : Surroundings) (o : ChildOptions) : Parent.Monitor :=
  (Parent.Monitor.start s.processes .ignore (Parent.resolve o.parentPid s.lookup)).1

structure Host where
  options : ChildOptions
  world : Shutdown.World
  station : Nat
  monitor : Parent.Monitor
  /-- A request to exit that is to be ignored was noticed. -/
  ignored : Bool := false

def Host.outlive (h : Host) : Host :=
  { h with world := { h.world with now := max h.world.now h.options.lifetime.toMillis } }

inductive Activity where
  | running (v : Supervision) (f : Forwarding)
  | hosting (h : Host)
  | over (code : UInt8)

structure Session where
  self : UInt32
  activity : Activity
  plan : Log.Plan := ⟨.nowhere, .error⟩
  /-- The files from when the log was opened. -/
  files : FileTree := .usual
  /-- The lines printed so far. -/
  printed : List String := []
  /-- What was written to standard error, the log apart. -/
  complained : List UInt8 := []
  logged : List Log.Entry := []
  /-- Why it failed, for people to read. -/
  report : Option String := none
  /-- How many lines were read. -/
  taken : Nat := 0

inductive Step where
  /-- Waits for the next line. -/
  | line
  | interrupt
  | pause (ms : Nat)
  /-- Asks whoever listens on a channel to exit; without a name, on that of the program's own id. -/
  | signalExit (name : Option String)
  deriving DecidableEq, Repr

def failureCode : UInt8 := 1

/-- The exit code of a program that ends in the middle of a computation. -/
def abortCode : UInt8 := 101

namespace Session

def note (s : Session) (e : Log.Entry) : Session :=
  { s with logged := s.logged ++ [e] }

def print (s : Session) (line : String) : Session :=
  { s with printed := s.printed ++ [line] }

def finish (s : Session) (code : UInt8) : Session :=
  { s with activity := .over code }

def fail (s : Session) (message : String) (code : UInt8) : Session :=
  { s.finish code with report := some message }

def isOver (s : Session) : Bool :=
  match s.activity with
  | .over _ => true
  | _ => false

/-- Carries out what forwarding does, which may be to ask the supervisor for a stop. -/
def carryOut (s : Session) (v : Supervision) : List Forwarding.Effect → Session × Supervision
  | [] => (s, v)
  | .print line :: rest => (s.print line).carryOut v rest
  | .complain line :: rest =>
    { s with complained := s.complained ++ Child.encodeLine line }.carryOut v rest
  | .log e :: rest => (s.note e).carryOut v rest
  | .stop timeout :: rest => s.carryOut (v.stop timeout) rest

def pick (s : Session) (v : Supervision) (f : Forwarding) (branches : List Forwarding.Branch) :
    Session :=
  let (f, effects) := f.execute branches
  let (s, v) := s.carryOut v effects
  { s with activity := .running v f }

/-- Passes on what has come, and ends if the program is gone. -/
def keepUp (s : Session) (v : Supervision) (f : Forwarding) : Session :=
  let v := v.settle
  let f := f.hear (Supervision.outputOf v.notices) (Supervision.errorsOf v.notices)
  let v := { v with notices := [] }
  let s := s.pick v f f.pending
  match s.activity with
  | .running v f =>
    if v.supervisor.state.isTerminal then
      (s.pick v f f.leave).finish (passOn ((v.supervisor.info.bind (·.exitCode)).getD (-1)))
    else s
  | _ => s

/-- What is supervised: the program with its arguments, which finds the id of its parent in its
environment unless it is told another. -/
def settingsFor (place : Surroundings) (o : RunOptions) (program : String) (rest : List String) :
    Settings :=
  let settings : Settings :=
    { workingDirectory := o.workdir.getD (FileTree.pathOf place.system.origin), program }
  let settings := (settings.withArgs rest).withCaptureStderr o.captureStderr
  let settings := settings.withEnv parentVariable (toString place.self.toNat)
  o.env.foldl (fun settings v => settings.withEnv v.1 v.2) settings

/-- Standard error goes straight through if it is not captured. -/
def passThrough (s : Session) (o : RunOptions) (script : Child.Script) : Session :=
  if o.captureStderr then s else { s with complained := s.complained ++ script.stderr }

/-- A process that takes no requests has nothing to wait for. -/
def begin (v : Supervision) : Supervision :=
  let v := v.awaken
  match v.child with
  | some c => if c.script.manner = .deaf then v.windUp c else v
  | none => v

def startRun (s : Session) (place : Surroundings) (o : RunOptions) : Session :=
  match o.program with
  | [] => s.fail "no program to run" failureCode
  | program :: rest =>
    let s := s.note .settings
    let v : Supervision :=
      { supervisor := { settings := settingsFor place o program rest }
        system := place.system
        self := place.self
        environment := place.environment
        script := place.script }
    let v := v.start
    match v.supervisor.startError with
    | some e => s.fail e.message failureCode
    | none =>
      let f : Forwarding :=
        { stopTimeout := o.stopTimeout
          output := ⟨Supervision.lineCapacity, [], 0⟩
          errors := ⟨Supervision.lineCapacity, [], 0⟩ }
      (s.passThrough o place.script).keepUp (begin v) f

def host (s : Session) (h : Host) : Session :=
  { s with activity := .hosting h }

def leave (s : Session) (h : Host) (reason : Log.Entry) : Session :=
  ((s.note reason).print "exiting").finish h.options.exitCode

def requested (h : Host) : Bool :=
  (h.world.station? h.station).any fun st => st.listener.outcome? = some .shutdownRequested

/-- Ends if it was asked to, or if its lifetime is over. -/
def lookAround (s : Session) (h : Host) : Session :=
  let asked := requested h && !h.ignored
  let s := if asked && h.options.ignoreExitSignal then s.note .exitIgnored else s
  let h := { h with ignored := h.ignored || asked && h.options.ignoreExitSignal }
  if requested h && !h.ignored then s.leave h .shuttingDown
  else if h.options.lifetime.toMillis ≤ h.world.now then s.leave h .lifetimeElapsed
  else s.host h

def startChild (s : Session) (place : Surroundings) (o : ChildOptions) : Session :=
  let channel := o.channelName.getD (Shutdown.Channel.ofProcess place.self).name
  let world : Shutdown.World := { files := place.system.files, temporary := place.temporary }
  match world.listen channel with
  | (.error e, _) => s.fail e.message failureCode
  | (.ok station, world) =>
    let world := { world with temporary := Shutdown.defaultTemporary }
    let s := s.note .listening
    let monitor := place.monitorFor o
    let s := if monitor.calls.isEmpty then s else s.note .parentExited
    let s := s.print ("started " ++ toString place.self.toNat)
    let h : Host := { options := o, world, station, monitor }
    if monitor.calls.isEmpty then s.lookAround h else s.leave h .shuttingDown

def planOf (place : Surroundings) (i : Invocation) :
    Except Log.PlanError (Log.Plan × FileTree) :=
  if (place.lookup logVariable).isSome then .ok (⟨.terminal, .error⟩, place.system.files)
  else Log.planFor place.system.files place.system.origin i.verbosity i.logFile

def start (place : Surroundings) (words : List String) : Session :=
  let s : Session := { self := place.self, activity := .over 0 }
  match read place.lookup words with
  | .error (.refused r) => s.fail r.message r.exitCode.toUInt8
  | .error (.aborted message) => s.fail message abortCode
  | .ok i =>
    match planOf place i with
    | .error .unnamed => s.fail "Failed to determine log file name" failureCode
    | .error .unopened => s.fail "initializing rolling file appender failed" abortCode
    | .ok (plan, files) =>
      let s := (({ s with plan, files }.note .initialised).note .starting).note .arguments
      let place := place.withFiles files
      match i.action with
      | .run o => s.startRun place o
      | .child o => s.startChild place o
      | .diagram => { s with printed := Lifecycle.diagramLines }

def hasUnread (s : Session) : Bool := s.taken < s.printed.length

def awaitLine (s : Session) : Session :=
  if s.hasUnread then s
  else
    match s.activity with
    | .over _ => s
    | .running v f =>
      s.keepUp (v.await fun v =>
        !(Supervision.outputOf v.notices).isEmpty || v.supervisor.state.isTerminal) f
    | .hosting h => s.lookAround h.outlive

def readLine (s : Session) : Bool × Session :=
  let s := s.awaitLine
  if s.hasUnread then (true, { s with taken := s.taken + 1 }) else (false, s)

def interrupt (s : Session) : Session :=
  match s.activity with
  | .over _ => s
  | .running v f =>
    let s := s.pick v f [.interrupt]
    match s.activity with
    | .running v f => s.keepUp v f
    | _ => s
  | .hosting h => s.leave h .interrupted

def pause (s : Session) (ms : Nat) : Session :=
  match s.activity with
  | .over _ => s
  | .running v f => s.keepUp (v.advance ms) f
  | .hosting h => s.lookAround { h with world := h.world.advance ms }

def answerOf (w : Shutdown.World) : Option Shutdown.Answer :=
  w.signalers.findSome? fun s => s.signaler.answer?

def awaitAnswer : Nat → Shutdown.World → Shutdown.World
  | 0, w => w
  | fuel + 1, w =>
    let w := w.settle
    if (answerOf w).isSome then w else awaitAnswer fuel (w.advance Shutdown.connectInterval)

def answerSteps : Nat :=
  (Shutdown.connectLimit + Shutdown.exchangeLimit) / Shutdown.connectInterval + 2

/-- Asks for an exit; gives whether that was acknowledged, and how the world is left. -/
def ask (w : Shutdown.World) (channel : String) : Bool × Shutdown.World :=
  let w := awaitAnswer answerSteps (w.signal "" channel)
  let acknowledged := match answerOf w with
    | some (.ok _) => true
    | _ => false
  (acknowledged, { w with signalers := [] })

/-- Only a process that hosts a listener answers; on another the request is given up in time. -/
def signalExit (s : Session) (name : Option String) : Bool × Session :=
  let channel := name.getD (Shutdown.Channel.ofProcess s.self).name
  match s.activity with
  | .over _ => (false, s)
  | .running v f =>
    let (acknowledged, w) := ask { files := s.files } channel
    (acknowledged, s.keepUp (v.advance w.now) f)
  | .hosting h =>
    let (acknowledged, world) := ask h.world channel
    (acknowledged, s.lookAround { h with world })

def apply (s : Session) : Step → Option Bool × Session
  | .line =>
    let (b, s) := s.readLine
    (some b, s)
  | .interrupt => (some true, s.interrupt)
  | .pause ms => (none, s.pause ms)
  | .signalExit name =>
    let (b, s) := s.signalExit name
    (some b, s)

def await (s : Session) : Session :=
  match s.activity with
  | .over _ => s
  | .running v f => s.keepUp (v.await fun v => v.supervisor.state.isTerminal) f
  | .hosting h => s.lookAround h.outlive

def execute (s : Session) : List Step → List (Option Bool) × Session
  | [] => ([], s.await)
  | e :: steps =>
    let (result, s) := s.apply e
    let (results, s) := s.execute steps
    (result :: results, s)

/-- For how many milliseconds it goes on by itself if it hosts a listener. -/
def remaining (s : Session) : Nat :=
  match s.activity with
  | .hosting h => h.options.lifetime.toMillis - h.world.now
  | _ => 0

/-- The exit code; none as long as the program goes on. -/
def code? (s : Session) : Option UInt8 :=
  match s.activity with
  | .over code => some code
  | _ => none

def complaints (s : Session) : List String :=
  Text.lines (Utf8.decode s.complained)

def logFile (s : Session) (path : String) : List Log.Entry :=
  match s.files.resolve FileTree.scratch path with
  | .ok place => s.plan.inFile place s.logged
  | .error _ => []

end Session

end Overseer.CommandLine
