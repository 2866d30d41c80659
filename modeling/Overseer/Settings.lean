import Overseer.Arguments
import Overseer.Environment

/-!
How a process is launched: the settings a supervisor is given, built step by step, and the command
that they stand for.
-/
namespace Overseer

structure Settings where
  workingDirectory : String
  program : String
  /-- One string that is split into the argument vector. -/
  arguments : String := ""
  /-- Variables set on top of the inherited environment. -/
  environment : Environment := .empty
  captureStderr : Bool := false
  deriving DecidableEq, Repr

structure Command where
  program : String
  arguments : List String
  directory : String
  environment : List Variable
  capturesStderr : Bool
  killedOnDrop : Bool
  deriving DecidableEq, Repr

namespace Settings

def withArguments (s : Settings) (arguments : String) : Settings :=
  { s with arguments }

def withArgs (s : Settings) (args : List String) : Settings :=
  { s with arguments := Arguments.join args }

def withEnv (s : Settings) (name value : String) : Settings :=
  { s with environment := s.environment.insert name value }

def withCaptureStderr (s : Settings) (captureStderr : Bool) : Settings :=
  { s with captureStderr }

inductive Step where
  | arguments (value : String)
  | args (values : List String)
  | env (name value : String)
  | captureStderr (value : Bool)
  deriving DecidableEq, Repr

def apply (s : Settings) : Step → Settings
  | .arguments value => s.withArguments value
  | .args values => s.withArgs values
  | .env name value => s.withEnv name value
  | .captureStderr value => s.withCaptureStderr value

def history (s : Settings) : List Step → List Settings
  | [] => [s]
  | step :: steps => s :: (s.apply step).history steps

def argv (s : Settings) : List String :=
  Arguments.split s.arguments

/-- The process runs in the current directory if none is named, and never outlives its handle. -/
def command (s : Settings) : Command where
  program := s.program
  arguments := s.argv
  directory := if s.workingDirectory.isEmpty then "." else s.workingDirectory
  environment := s.environment.entries
  capturesStderr := s.captureStderr
  killedOnDrop := true

end Settings

def holdsNul (s : String) : Bool :=
  s.toList.any fun c => c.toNat = 0

/-- How a command shows one of its words: no word that holds a NUL can be passed on. -/
def Command.shown (word : String) : String :=
  if holdsNul word then "<string-with-nul>" else word

def Command.described (c : Command) : Command :=
  { c with
    program := shown c.program
    arguments := c.arguments.map shown
    directory := shown c.directory }

end Overseer
