import Overseer.CommandLine.Grammar
import Overseer.Duration.Reader
import Overseer.Shutdown.Channel
import Overseer.Text.Integer
import Overseer.Text.Quoted
import Overseer.Warning

/-!
The command line of the program: what may be asked of it, with which switches, and what is assumed
where nothing is said. Two switches of `child` may be given by variables instead.
-/
namespace Overseer.CommandLine

structure RunOptions where
  program : List String
  workdir : Option String
  env : List (String × String)
  captureStderr : Bool
  stopTimeout : Duration
  deriving DecidableEq, Repr

structure ChildOptions where
  parentPid : Option UInt32
  channelName : Option String
  ignoreExitSignal : Bool
  exitCode : UInt8
  lifetime : Duration
  deriving DecidableEq, Repr

inductive Action where
  | run (o : RunOptions)
  | child (o : ChildOptions)
  | diagram
  deriving DecidableEq, Repr

structure Invocation where
  action : Action
  verbosity : Nat
  logFile : Option String
  deriving DecidableEq, Repr

def readDuration (text : String) : Outcome Duration :=
  match Duration.ofText text with
  | .ok d => .ok d
  | .error .overflow => .error (.aborted DurationError.overflow.message)
  | .error e => refuse (.invalid e.message)

/-- A variable and its value; the variable must have a name. -/
def readVariable (text : String) : Outcome (String × String) :=
  match splitAtEquals text.toList with
  | (c :: name, some value) => .ok (String.ofList (c :: name), String.ofList value)
  | _ => refuse (.invalid ("expected KEY=VALUE, got " ++ Text.quote text))

/-- A number from zero to `greatest`, which is smaller than 63 bits. -/
def readNumber (greatest : Nat) (text : String) : Outcome Nat :=
  match Text.parseSigned 64 text with
  | .error e => refuse (.invalid e.message)
  | .ok n =>
    if 0 ≤ n ∧ n ≤ greatest then .ok n.toNat
    else refuse (.invalid (toString n ++ " is not in 0..=" ++ toString greatest))

def readPath (display text : String) : Outcome String :=
  if text.isEmpty then refuse (.missingValue display) else .ok text

structure Logging where
  verbosity : Option Nat := none
  file : Option String := none
  deriving DecidableEq, Repr

structure Draft (σ : Type) where
  logging : Logging := {}
  own : σ
  deriving DecidableEq, Repr

variable {σ : Type}

/-- Counting stops at the greatest byte. -/
def countVerbose (l : Logging) : Logging :=
  { l with verbosity := some (min 255 (l.verbosity.getD 0 + 1)) }

def verboseSwitch : Switch (Draft σ) where
  long := "verbose"
  short := some 'v'
  display := "--verbose..."
  takes := .nothing
  repeats := true
  apply d _ := .ok { d with logging := countVerbose d.logging }

def logFileSwitch : Switch (Draft σ) where
  long := "log-file"
  short := none
  display := "--log-file [<PATH>]"
  takes := .optional "."
  repeats := false
  apply d text := do
    let path ← readPath "--log-file [<PATH>]" text
    .ok { d with logging := { d.logging with file := some path } }

def helpSwitch : Switch (Draft σ) where
  long := "help"
  short := some 'h'
  display := "--help"
  takes := .nothing
  repeats := true
  apply _ _ := refuse .help

def versionSwitch : Switch (Draft σ) where
  long := "version"
  short := some 'V'
  display := "--version"
  takes := .nothing
  repeats := true
  apply _ _ := refuse .version

def commonSwitches : List (Switch (Draft σ)) :=
  [verboseSwitch, logFileSwitch, helpSwitch]

def valueSwitch (long : String) (short : Option Char) (valueName : String)
    (apply : String → σ → String → Outcome σ) : Switch (Draft σ) where
  long := long
  short := short
  display := "--" ++ long ++ " <" ++ valueName ++ ">"
  takes := .value
  repeats := false
  apply d text := do
    let own ← apply ("--" ++ long ++ " <" ++ valueName ++ ">") d.own text
    .ok { d with own }

def flagSwitch (long : String) (apply : σ → σ) : Switch (Draft σ) where
  long := long
  short := none
  display := "--" ++ long
  takes := .nothing
  repeats := false
  apply d _ := .ok { d with own := apply d.own }

def subcommandNames : List String := ["run", "child", "diagram"]

def rootGrammar : Grammar (Draft Unit) where
  switches := commonSwitches ++ [versionSwitch]
  subcommands := subcommandNames ++ ["help"]
  takesProgram := false

/-- Help is had on the program or on a subcommand; no subcommand has any of its own. -/
def readHelp (known : List String) : List String → Refusal
  | [] => .help
  | w :: ws => if known.contains w then readHelp [] ws else .invalidSubcommand w

structure RunDraft where
  workdir : Option String := none
  env : List (String × String) := []
  captureStderr : Bool := false
  stopTimeout : Duration := .ofSeconds 5 (by decide)
  deriving DecidableEq, Repr

def envSwitch : Switch (Draft RunDraft) :=
  { valueSwitch "env" (some 'E') "KEY=VALUE" fun _ (d : RunDraft) text => do
      let v ← readVariable text
      .ok { d with env := d.env ++ [v] } with
    repeats := true }

def runGrammar : Grammar (Draft RunDraft) where
  switches := commonSwitches ++
    [valueSwitch "workdir" (some 'w') "DIRECTORY" fun display d text => do
        let path ← readPath display text
        .ok { d with workdir := some path },
      envSwitch,
      flagSwitch "capture-stderr" fun d => { d with captureStderr := true },
      valueSwitch "stop-timeout" none "TIMEOUT" fun _ d text => do
        let stopTimeout ← readDuration text
        .ok { d with stopTimeout }]
  subcommands := []
  takesProgram := true

def readAll (g : Grammar (Draft σ)) (d : σ) (words : List String) :
    Outcome (Progress (Draft σ)) := do
  let (p, _) ← g.readWords { draft := { own := d } } words
  p.resolve

def readRun (words : List String) : Outcome (Logging × RunOptions) := do
  let p ← readAll runGrammar {} words
  let own := p.draft.own
  if p.program.isEmpty then refuse .missingPositional
  else
    .ok (p.draft.logging,
      { own with program := p.program })

structure ChildDraft where
  parentPid : Option UInt32 := none
  channelName : Option String := none
  ignoreExitSignal : Bool := false
  exitCode : UInt8 := 0
  lifetime : Duration := .ofSeconds 100 (by decide)
  deriving DecidableEq, Repr

def takeParentPid (d : ChildDraft) (text : String) : Outcome ChildDraft := do
  let n ← readNumber greatest32 text
  .ok { d with parentPid := some n.toUInt32 }

def takeChannelName (d : ChildDraft) (text : String) : Outcome ChildDraft :=
  .ok { d with channelName := some text }

def childGrammar : Grammar (Draft ChildDraft) where
  switches := commonSwitches ++
    [valueSwitch "parent-pid" none "PID" fun _ => takeParentPid,
      valueSwitch "pipe-name" none "NAME" fun _ => takeChannelName,
      flagSwitch "ignore-exit-signal" fun d => { d with ignoreExitSignal := true },
      valueSwitch "exit-code" none "CODE" fun _ d text => do
        let n ← readNumber 255 text
        .ok { d with exitCode := n.toUInt8 },
      valueSwitch "lifetime" none "DURATION" fun _ d text => do
        let lifetime ← readDuration text
        .ok { d with lifetime }]
  subcommands := []
  takesProgram := false

/-- A variable counts if its switch was not given. -/
def fallBack (lookup : String → Option String) (variable_ : String) (given : Bool)
    (take : ChildDraft → String → Outcome ChildDraft) (d : ChildDraft) : Outcome ChildDraft :=
  if given then .ok d
  else
    match lookup variable_ with
    | none => .ok d
    | some text => take d text

def readChild (lookup : String → Option String) (words : List String) :
    Outcome (Logging × ChildOptions) := do
  let p ← readAll childGrammar {} words
  let own := p.draft.own
  let own ← fallBack lookup parentVariable own.parentPid.isSome takeParentPid own
  let own ← fallBack lookup Shutdown.channelVariable own.channelName.isSome takeChannelName own
  .ok (p.draft.logging, { own with })

def diagramGrammar : Grammar (Draft Unit) where
  switches := commonSwitches
  subcommands := []
  takesProgram := false

def readAction (lookup : String → Option String) (name : String) (words : List String) :
    Outcome (Logging × Action) :=
  if name = "run" then do
    let (l, o) ← readRun words
    .ok (l, .run o)
  else if name = "child" then do
    let (l, o) ← readChild lookup words
    .ok (l, .child o)
  else if name = "diagram" then do
    let p ← readAll diagramGrammar () words
    .ok (p.draft.logging, .diagram)
  else refuse (readHelp rootGrammar.subcommands words)

/-- Reads the words after the program's own name. What stands after the subcommand is read before
the last switch in front of it is decided on, and replaces what is said there. -/
def read (lookup : String → Option String) (words : List String) : Outcome Invocation := do
  match ← rootGrammar.readWords { draft := { own := () } } words with
  | (p, some (name, rest)) =>
    let (inner, action) ← readAction lookup name rest
    let outer := (← p.resolve).draft.logging
    .ok
      { action
        verbosity := (inner.verbosity <|> outer.verbosity).getD 0
        logFile := inner.file <|> outer.file }
  | (p, none) =>
    let p ← p.resolve
    refuse (if p.seen.isEmpty then .nothingGiven else .missingSubcommand)

end Overseer.CommandLine
