import Overseer.Text.Control
import Overseer.Text.Lines

/-!
Reading command lines. Words are read from left to right against the switches of a command. A value
that stands in a word of its own is only looked at once the next switch, the first positional word
or the end shows that nothing more belongs to it, so that an unknown switch after it is met first.
The value is still read then, and only a reading that breaks off counts.
-/
namespace Overseer.CommandLine

inductive Refusal where
  | help
  | version
  /-- There is nothing but perhaps a separator. -/
  | nothingGiven
  | missingSubcommand
  | invalidSubcommand (word : String)
  | unknownArgument (word : String)
  | unneededValue (value display : String)
  | missingValue (display : String)
  | repeated (display : String)
  | missingPositional
  /-- A value was refused, with these words. -/
  | invalid (message : String)
  deriving DecidableEq, Repr

namespace Refusal

def kind : Refusal → String
  | .help => "DisplayHelp"
  | .version => "DisplayVersion"
  | .nothingGiven => "DisplayHelpOnMissingArgumentOrSubcommand"
  | .missingSubcommand => "MissingSubcommand"
  | .invalidSubcommand _ => "InvalidSubcommand"
  | .unknownArgument _ => "UnknownArgument"
  | .unneededValue _ _ => "TooManyValues"
  | .missingValue _ => "InvalidValue"
  | .repeated _ => "ArgumentConflict"
  | .missingPositional => "MissingRequiredArgument"
  | .invalid _ => "ValueValidation"

/-- How a report begins, with a word from the command line as it would look on a terminal. -/
def report : Refusal → String
  | .help | .version | .nothingGiven => ""
  | .missingSubcommand =>
    "error: 'procwarden' requires a subcommand but one was not provided"
  | .invalidSubcommand word =>
    "error: unrecognized subcommand '" ++ Text.withoutControls word ++ "'"
  | .unknownArgument word =>
    "error: unexpected argument '" ++ Text.withoutControls word ++ "' found"
  | .unneededValue value display =>
    "error: unexpected value '" ++ Text.withoutControls value ++ "' for '" ++ display ++
      "' found; no more were expected"
  | .missingValue display =>
    "error: a value is required for '" ++ display ++ "' but none was supplied"
  | .repeated display =>
    "error: the argument '" ++ display ++ "' cannot be used multiple times"
  | .missingPositional => "error: the following required arguments were not provided:"
  | .invalid message => message

def message : Refusal → String
  | .invalid message => message
  | r => (Text.lines r.report).headD ""

/-- Whoever asks for help or the version gets it and succeeds. -/
def exitCode : Refusal → Nat
  | .help | .version => 0
  | _ => 2

end Refusal

/-- How reading ends without an invocation: with a report, or in the middle of computing a value. -/
inductive Stop where
  | refused (r : Refusal)
  | aborted (message : String)
  deriving DecidableEq, Repr

abbrev Outcome (α : Type) := Except Stop α

def refuse {α : Type} (r : Refusal) : Outcome α := .error (.refused r)

/-- What a switch takes. An optional value has a text that stands for it. -/
inductive Takes where
  | nothing
  | value
  | optional (missing : String)
  deriving DecidableEq, Repr

structure Switch (σ : Type) where
  long : String
  short : Option Char
  /-- The switch with the name of its value, as reports show it. -/
  display : String
  takes : Takes
  repeats : Bool
  /-- Puts a value into the draft; a switch that takes nothing is given the empty text. -/
  apply : σ → String → Outcome σ

/-- The switches of a command, the words that name subcommands, and whether the first positional
word begins a list to which all further words belong. -/
structure Grammar (σ : Type) where
  switches : List (Switch σ)
  subcommands : List String
  takesProgram : Bool

namespace Grammar

variable {σ : Type}

def long? (g : Grammar σ) (name : String) : Option (Switch σ) :=
  g.switches.find? fun s => s.long = name

def short? (g : Grammar σ) (c : Char) : Option (Switch σ) :=
  g.switches.find? fun s => s.short = some c

end Grammar

structure Pending (σ : Type) where
  switch : Switch σ
  value : Option String

structure Progress (σ : Type) where
  draft : σ
  /-- The switches that were applied. -/
  seen : List String := []
  pending : Option (Pending σ) := none
  /-- The next word may be the value of the pending switch. -/
  awaiting : Bool := false
  program : List String := []

namespace Progress

variable {σ : Type}

def react (p : Progress σ) (s : Switch σ) (value : Option String) : Outcome (Progress σ) :=
  let given : Option String := match value, s.takes with
    | some v, _ => some v
    | none, .nothing => some ""
    | none, .optional missing => some missing
    | none, .value => none
  match given with
  | none => refuse (.missingValue s.display)
  | some v =>
    if !s.repeats && p.seen.contains s.long then refuse (.repeated s.display)
    else do
      let draft ← s.apply p.draft v
      .ok { p with draft, seen := s.long :: p.seen }

def resolve (p : Progress σ) : Outcome (Progress σ) :=
  match p.pending with
  | none => .ok { p with awaiting := false }
  | some ⟨s, value⟩ => { p with pending := none, awaiting := false }.react s value

def give (p : Progress σ) (s : Switch σ) (value : Option String) : Outcome (Progress σ) := do
  (← p.resolve).react s value

def await (p : Progress σ) (s : Switch σ) : Outcome (Progress σ) := do
  .ok { ← p.resolve with pending := some ⟨s, none⟩, awaiting := true }

/-- Refuses the words. The switch that is pending is decided on before, but only a reading that
breaks off counts. -/
def decline {α : Type} (p : Progress σ) (r : Refusal) : Outcome α :=
  match p.resolve with
  | .error (.aborted message) => .error (.aborted message)
  | _ => refuse r

def supply (p : Progress σ) (word : String) : Progress σ :=
  { p with
    pending := p.pending.map fun q => { q with value := some word }
    awaiting := false }

end Progress

/-- What a word looks like before it is compared with any switch. -/
inductive Form where
  | separator
  | long (name : String) (value : Option String)
  | cluster (letters : List Char)
  | plain
  deriving DecidableEq, Repr

def splitAtEquals (cs : List Char) : List Char × Option (List Char) :=
  match cs.dropWhile (· ≠ '=') with
  | [] => (cs, none)
  | _ :: value => (cs.takeWhile (· ≠ '='), some value)

def form (word : String) : Form :=
  match word.toList with
  | ['-', '-'] => .separator
  | '-' :: '-' :: cs =>
    let (name, value) := splitAtEquals cs
    .long (String.ofList name) (value.map String.ofList)
  | ['-'] => .plain
  | '-' :: letters => .cluster letters
  | _ => .plain

namespace Grammar

variable {σ : Type}

def readLong (g : Grammar σ) (p : Progress σ) (name : String) (value : Option String) :
    Outcome (Progress σ) :=
  match g.long? name with
  | none => p.decline (.unknownArgument ("--" ++ name))
  | some s =>
    match s.takes, value with
    | .nothing, some v => p.decline (.unneededValue v s.display)
    | .nothing, none => p.give s none
    | _, some v => p.give s (some v)
    | _, none => p.await s

/-- One letter after the other, until one takes the rest of the word as its value. -/
def readCluster (g : Grammar σ) (p : Progress σ) : List Char → Outcome (Progress σ)
  | [] => .ok p
  | c :: cs =>
    match g.short? c with
    | none => p.decline (.unknownArgument (String.ofList ['-', c]))
    | some s =>
      match s.takes, cs with
      | .nothing, cs => do g.readCluster (← p.give s none) cs
      | _, [] => p.await s
      | _, '=' :: v => p.give s (some (String.ofList v))
      | _, v => p.give s (some (String.ofList v))

def readProgram (p : Progress σ) (words : List String) : Outcome (Progress σ) := do
  .ok { ← p.resolve with program := words }

def unexpected (g : Grammar σ) (word : String) : Refusal :=
  if g.subcommands.isEmpty then .unknownArgument word else .invalidSubcommand word

/-- The words after a separator are positional, also those that look like switches. -/
def readTrailing (g : Grammar σ) (p : Progress σ) : List String → Outcome (Progress σ)
  | [] => .ok p
  | w :: ws =>
    if g.takesProgram then readProgram p (w :: ws)
    else if g.subcommands.contains w then p.decline (.unknownArgument w)
    else p.decline (g.unexpected w)

abbrev Subcommand := String × List String

/-- Reads words up to the end or a subcommand. -/
def readWords (g : Grammar σ) (p : Progress σ) :
    List String → Outcome (Progress σ × Option Subcommand)
  | [] => .ok (p, none)
  | w :: ws =>
    if !p.awaiting && g.subcommands.contains w then .ok (p, some (w, ws))
    else
      match form w with
      | .separator => do .ok (← g.readTrailing p ws, none)
      | .long name value => do g.readWords (← g.readLong p name value) ws
      | .cluster letters => do g.readWords (← g.readCluster p letters) ws
      | .plain =>
        if p.awaiting then g.readWords (p.supply w) ws
        else if g.takesProgram then do .ok (← readProgram p (w :: ws), none)
        else p.decline (g.unexpected w)

end Grammar

end Overseer.CommandLine
