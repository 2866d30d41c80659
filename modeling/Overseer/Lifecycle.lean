/-!
The life of a supervised process: its states, the triggers that move it, and the table of permitted
moves. A row may ask for a condition on whether the process was killed and on its exit code.
-/
namespace Overseer

inductive State where
  | notStarted
  | running
  | startFailed
  | stopping
  | exitedSuccessfully
  | exitedWithError
  | exitedUnexpectedly
  | exitedKilled
  deriving DecidableEq, Repr, Inhabited

inductive Trigger where
  | start
  | startError
  | stop
  | processExit
  deriving DecidableEq, Repr

namespace State

def all : List State :=
  [.notStarted, .running, .startFailed, .stopping, .exitedSuccessfully, .exitedWithError,
    .exitedUnexpectedly, .exitedKilled]

def name : State → String
  | .notStarted => "NotStarted"
  | .running => "Running"
  | .startFailed => "StartFailed"
  | .stopping => "Stopping"
  | .exitedSuccessfully => "ExitedSuccessfully"
  | .exitedWithError => "ExitedWithError"
  | .exitedUnexpectedly => "ExitedUnexpectedly"
  | .exitedKilled => "ExitedKilled"

def ofName? (name : String) : Option State :=
  all.find? fun s => s.name = name

/-- The process ran and is gone. -/
def isExited : State → Bool
  | .exitedSuccessfully | .exitedWithError | .exitedUnexpectedly | .exitedKilled => true
  | _ => false

/-- Nothing more happens unless it is started again. -/
def isTerminal (s : State) : Bool :=
  s.isExited || s = .startFailed

def isLive (s : State) : Bool :=
  s = .running || s = .stopping

end State

namespace Trigger

def all : List Trigger :=
  [.start, .startError, .stop, .processExit]

def name : Trigger → String
  | .start => "Start"
  | .startError => "StartError"
  | .stop => "Stop"
  | .processExit => "ProcessExit"

def ofName? (name : String) : Option Trigger :=
  all.find? fun t => t.name = name

end Trigger

namespace Lifecycle

structure Context where
  killed : Bool := false
  exitCode : Option Int32 := none
  deriving DecidableEq, Repr

inductive Guard where
  | always
  | exited
  | cleanExit
  | errorExit
  | killed
  deriving DecidableEq, Repr

def Guard.holds (context : Context) : Guard → Bool
  | .always => true
  | .exited => context.exitCode.isSome
  | .cleanExit => !context.killed && context.exitCode = some 0
  | .errorExit => !context.killed && context.exitCode ≠ some 0
  | .killed => context.killed

def Guard.label : Guard → Option String
  | .always | .exited => none
  | .cleanExit => some "!killed && code == 0"
  | .errorExit => some "!killed && code != 0"
  | .killed => some "killed"

structure Row where
  source : State
  trigger : Trigger
  guard : Guard
  target : State
  deriving DecidableEq, Repr

def table : List Row :=
  [⟨.notStarted, .start, .always, .running⟩,
    ⟨.running, .startError, .always, .startFailed⟩,
    ⟨.running, .stop, .always, .stopping⟩,
    ⟨.running, .processExit, .exited, .exitedUnexpectedly⟩,
    ⟨.stopping, .processExit, .cleanExit, .exitedSuccessfully⟩,
    ⟨.stopping, .processExit, .errorExit, .exitedWithError⟩,
    ⟨.stopping, .processExit, .killed, .exitedKilled⟩,
    ⟨.startFailed, .start, .always, .running⟩,
    ⟨.exitedSuccessfully, .start, .always, .running⟩,
    ⟨.exitedWithError, .start, .always, .running⟩,
    ⟨.exitedUnexpectedly, .start, .always, .running⟩,
    ⟨.exitedKilled, .start, .always, .running⟩]

def Row.permits (row : Row) (s : State) (t : Trigger) (context : Context) : Bool :=
  row.source = s && row.trigger = t && row.guard.holds context

/-- The first row that permits the trigger decides; without one the trigger is refused. -/
def next (s : State) (t : Trigger) (context : Context) : Option State :=
  (table.find? fun row => row.permits s t context).map Row.target

structure Event where
  trigger : Trigger
  context : Context
  deriving DecidableEq, Repr

structure Move where
  trigger : Trigger
  moved : Bool
  state : State
  deriving DecidableEq, Repr

/-- A refused trigger leaves the state as it is. -/
def advance (s : State) (e : Event) : State :=
  (next s e.trigger e.context).getD s

def execute (s : State) : List Event → List Move
  | [] => []
  | e :: events =>
    ⟨e.trigger, (next s e.trigger e.context).isSome, advance s e⟩ :: execute (advance s e) events

/-- The triggers some row knows for a state, whatever its guard, in the order of the table. -/
def permitted (s : State) : List Trigger :=
  ((table.filter fun row => row.source = s).map Row.trigger).eraseDups

end Lifecycle

end Overseer
