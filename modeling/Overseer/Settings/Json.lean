import Overseer.Json.Decoder
import Overseer.Json.Writer
import Overseer.Settings

/-!
Settings as JSON. The directory and the program must be given; other fields have defaults, and a
field that is not known is skipped. Of a variable that is given twice the last value stays.
-/
namespace Overseer

namespace Settings

structure Draft where
  workingDirectory : Option String := none
  program : Option String := none
  arguments : Option String := none
  environment : Option Environment := none
  captureStderr : Option Bool := none
  deriving DecidableEq, Repr

def fieldNames : List String :=
  ["working_directory", "program", "arguments", "environment", "capture_stderr"]

def putVariable (e : Environment) (name : String) (v : Json.Value) : Json.Decoded Environment :=
  (v.decodeString "a string").map (e.insert name)

def decodeEnvironment : Json.Value → Json.Decoded Environment
  | .object members ending => Json.foldMembers putVariable ending .empty members
  | .misnamed => .error Json.malformed
  | v => .error (v.mismatch "a map")

/-- Takes a value for a field, which must not have one. -/
def once {α : Type} (name : String) (old : Option α) (decoded : Json.Decoded α) :
    Json.Decoded (Option α) :=
  if old.isSome then .error (.duplicateField name) else decoded.map some

def Draft.put (d : Draft) (name : String) (v : Json.Value) : Json.Decoded Draft :=
  if name = "working_directory" then
    (once name d.workingDirectory (v.decodeString "path string")).map fun x =>
      { d with workingDirectory := x }
  else if name = "program" then
    (once name d.program (v.decodeString "path string")).map fun x => { d with program := x }
  else if name = "arguments" then
    (once name d.arguments (v.decodeString "a string")).map fun x => { d with arguments := x }
  else if name = "environment" then
    (once name d.environment (decodeEnvironment v)).map fun x => { d with environment := x }
  else if name = "capture_stderr" then
    (once name d.captureStderr v.decodeBoolean).map fun x => { d with captureStderr := x }
  else v.skip.map fun _ => d

def Draft.finish (d : Draft) : Json.Decoded Settings :=
  match d.workingDirectory, d.program with
  | none, _ => .error (.missingField "working_directory")
  | _, none => .error (.missingField "program")
  | some workingDirectory, some program =>
    .ok
      { workingDirectory, program
        arguments := d.arguments.getD ""
        environment := d.environment.getD .empty
        captureStderr := d.captureStderr.getD false }

def shape : Json.Shape Draft Settings where
  title := "struct SupervisorSettings"
  fields := fieldNames
  required := 2
  start := {}
  put := Draft.put
  finish := Draft.finish

def ofJson : Json.Value → Json.Decoded Settings := shape.decode

def toJson (s : Settings) : Json.Value :=
  .ofMembers
    [("working_directory", .ofString s.workingDirectory), ("program", .ofString s.program),
      ("arguments", .ofString s.arguments),
      ("environment", .ofMembers (s.environment.entries.map fun v => (v.1, .ofString v.2))),
      ("capture_stderr", .boolean s.captureStderr)]

end Settings

end Overseer
