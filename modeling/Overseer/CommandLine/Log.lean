import Overseer.FileTree

/-!
What the program logs about itself, and where that goes. Each switch for more of it lets one more
level through; a file without any such switch gets all but the finest. The variable for logging
takes the decision away from the switches.
-/
namespace Overseer.CommandLine

def logVariable : String := "RUST_LOG"

namespace Log

inductive Level where
  | error
  | warn
  | info
  | debug
  | trace
  deriving DecidableEq, Repr

def Level.name : Level → String
  | .error => "ERROR"
  | .warn => "WARN"
  | .info => "INFO"
  | .debug => "DEBUG"
  | .trace => "TRACE"

def Level.rank : Level → Nat
  | .error => 0
  | .warn => 1
  | .info => 2
  | .debug => 3
  | .trace => 4

/-- The finest level that so many switches let through. -/
def Level.ofVerbosity : Nat → Level
  | 0 => .error
  | 1 => .warn
  | 2 => .info
  | 3 => .debug
  | _ => .trace

inductive Entry where
  | initialised
  | starting
  | arguments
  | settings
  | outputDropped (count : Nat)
  | errorsDropped (count : Nat)
  | interruptedStopping
  | interruptedKilling
  | finished
  | listening
  | exitIgnored
  | parentExited
  | shuttingDown
  | lifetimeElapsed
  | interrupted
  deriving DecidableEq, Repr

def Entry.level : Entry → Level
  | .arguments | .settings => .debug
  | .outputDropped _ | .errorsDropped _ => .warn
  | _ => .info

def Entry.message : Entry → String
  | .initialised => "logging initialised"
  | .starting => "starting"
  | .arguments => "arguments"
  | .settings => "supervisor settings"
  | .outputDropped _ => "output lines dropped"
  | .errorsDropped _ => "error lines dropped"
  | .interruptedStopping => "interrupted, stopping"
  | .interruptedKilling => "interrupted again, killing"
  | .finished => "supervised program finished"
  | .listening => "listening for exit requests"
  | .exitIgnored => "exit requested, ignoring"
  | .parentExited => "parent exited"
  | .shuttingDown => "shutting down"
  | .lifetimeElapsed => "lifetime elapsed"
  | .interrupted => "interrupted"

inductive Sink where
  | nowhere
  | terminal
  | file (place : FileTree.Place)
  deriving DecidableEq, Repr

structure Plan where
  sink : Sink
  level : Level
  deriving DecidableEq, Repr

def partsOf (path : String) : List String :=
  (FileTree.names path).filter (· ≠ ".")

/-- Whether a path ends in a name, which a file can have. -/
def endsInName (path : String) : Bool :=
  (partsOf path).getLast?.any (· ≠ "..")

inductive PlanError where
  /-- The file cannot have a name. -/
  | unnamed
  /-- The file cannot be opened. -/
  | unopened
  deriving DecidableEq, Repr

def datedName : String := "procwarden.0000-00-00T00-00-00Z.log"

/-- Opens the file for the log, which in a directory gets a name of its own. Its place is given, and
the files with what was made. -/
def openedFor (files : FileTree) (origin : FileTree.Place) (path : String) :
    Except PlanError (FileTree.Place × FileTree) :=
  let opened (start : FileTree.Place) (parts : List String) :=
    match files.openedBelow? start parts with
    | some opened => .ok opened
    | none => .error .unopened
  match files.resolveDirectory origin path with
  | .ok place => opened place [datedName]
  | .error _ =>
    if !endsInName path then .error .unnamed
    else if FileTree.pathLimit ≤ path.utf8ByteSize then .error .unopened
    else opened (FileTree.base origin path) (partsOf path)

/-- Where the switches send the log to, and the files from then on. -/
def planFor (files : FileTree) (origin : FileTree.Place) (verbosity : Nat)
    (file : Option String) : Except PlanError (Plan × FileTree) :=
  match file with
  | none =>
    .ok (⟨if verbosity = 0 then .nowhere else .terminal, .ofVerbosity verbosity⟩, files)
  | some path => do
    let (place, files) ← openedFor files origin path
    .ok (⟨.file place, .ofVerbosity (if verbosity = 0 then 3 else verbosity)⟩, files)

def Plan.kept (p : Plan) (entries : List Entry) : List Entry :=
  match p.sink with
  | .nowhere => []
  | _ => entries.filter fun e => e.level.rank ≤ p.level.rank

def Plan.inFile (p : Plan) (place : FileTree.Place) (entries : List Entry) : List Entry :=
  if p.sink = .file place then p.kept entries else []

def Entry.describe (e : Entry) : String :=
  e.level.name ++ " " ++ e.message

end Log

end Overseer.CommandLine
