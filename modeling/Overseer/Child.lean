import Overseer.Environment
import Overseer.Text.Lines
import Overseer.Warning

/-!
Children that play a script: what such a process writes when it begins and when it ends, how it
takes a request to exit, and with which exit code it ends.
-/
namespace Overseer

namespace Child

/-- What a process makes of requests to exit. -/
inductive Manner where
  /-- It does not listen for any. -/
  | deaf
  | exits
  /-- It acknowledges one and goes on. -/
  | ignores
  deriving DecidableEq, Repr

structure Script where
  stdout : List UInt8 := []
  stderr : List UInt8 := []
  lateStdout : List UInt8 := []
  /-- Things about itself that it writes, one a line. -/
  showArguments : Bool := false
  showVariables : List String := []
  showDirectory : Bool := false
  showParent : Bool := false
  showInput : Bool := false
  manner : Manner := .deaf
  code : Int := 0
  /-- The signal with which it ends itself in place of an exit code. -/
  signal : Option Nat := none
  /-- It leaves a process of its own behind that holds its standard output open. -/
  lingers : Bool := false
  deriving DecidableEq, Repr

structure Surroundings where
  arguments : List String
  environment : List Variable
  directory : String
  /-- The id of the process that launched it. -/
  parent : UInt32
  deriving DecidableEq, Repr

/-- The value of a variable: what follows its name and an equals sign in the first entry that begins
so. -/
def valueOf (environment : List Variable) (name : String) : Option String :=
  if name = "" then none
  else
    environment.findSome? fun entry =>
      ((name ++ "=").toList.isPrefixOf? (entry.1 ++ "=" ++ entry.2).toList).map String.ofList

def describeVariable (environment : List Variable) (name : String) : String :=
  match valueOf environment name with
  | some value => "env:" ++ name ++ "=" ++ value
  | none => "env:" ++ name ++ "unset"

def knowsParent (s : Surroundings) : Bool :=
  valueOf s.environment parentVariable = some (toString s.parent.toNat)

def shownLines (script : Script) (s : Surroundings) : List String :=
  (if script.showArguments then s.arguments.map ("arg:" ++ ·) else []) ++
    script.showVariables.map (describeVariable s.environment) ++
    (if script.showDirectory then ["cwd:" ++ s.directory] else []) ++
    (if script.showParent then
      ["parent:" ++ (if knowsParent s then "true" else "false")] else []) ++
    if script.showInput then ["stdin:0"] else []

def encodeLine (line : String) : List UInt8 :=
  Utf8.encode line ++ [LineReader.newline]

def opening (script : Script) (s : Surroundings) : List UInt8 :=
  script.stdout ++ (shownLines script s).flatMap encodeLine

def codeOfSignal (signal : Nat) : Int32 :=
  Int32.ofNat (128 + signal)

def killSignal : Nat := 9

def Script.exitCode (script : Script) : Int32 :=
  match script.signal with
  | some signal => codeOfSignal signal
  | none => Int32.ofInt (script.code % 256)

/-- For how long its output is waited for once it has ended, in milliseconds, if another process
holds it open. -/
def drainLimit : Nat := 500

inductive Phase where
  | begun
  /-- It wrote what it writes at first and takes requests. -/
  | ready
  /-- It has ended; its exit is reported at a time that is known. -/
  | ended (code : Int32) (due : Nat)
  | reported
  deriving DecidableEq, Repr

end Child

/-- A process that was launched, and what its streams hold of a line that is not ended. -/
structure Child where
  pid : UInt32
  script : Child.Script
  surroundings : Child.Surroundings
  phase : Child.Phase := .begun
  output : LineReader := {}
  errors : LineReader := {}
  deriving DecidableEq, Repr

namespace Child

def isAlive (c : Child) : Bool :=
  c.phase = .begun || c.phase = .ready

/-- Takes part of what it writes to standard output, and gives the lines that are complete. -/
def write (c : Child) (bytes : List UInt8) : List String × Child :=
  let (lines, output) := c.output.feed bytes
  (lines, { c with output })

def complain (c : Child) (bytes : List UInt8) : List String × Child :=
  let (lines, errors) := c.errors.feed bytes
  (lines, { c with errors })

/-- The report of an exit waits for the output, which another process may hold open. -/
def reportTime (c : Child) (now : Nat) : Nat :=
  if c.script.lingers then now + drainLimit else now

def finish (c : Child) (code : Int32) (now : Nat) : Child :=
  if c.isAlive then { c with phase := .ended code (c.reportTime now) } else c

/-- Output that is held open keeps what it holds of a line to itself. -/
def lastLines (c : Child) : List String :=
  if c.script.lingers then [] else c.output.finish

end Child

end Overseer
