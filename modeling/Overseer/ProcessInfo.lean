import Overseer.Json.Decoder
import Overseer.Json.Writer
import Overseer.Text.Integer

/-!
What is known of a process that was launched: its id, and its exit code once it has ended.
-/
namespace Overseer

structure ProcessInfo where
  id : UInt32
  exitCode : Option Int32 := none
  deriving DecidableEq, Repr

namespace ProcessInfo

structure Draft where
  id : Option UInt32 := none
  exitCode : Option (Option Int32) := none
  deriving DecidableEq, Repr

def decodeId (v : Json.Value) : Json.Decoded UInt32 :=
  (v.decodeInteger 0 greatest32 "u32").map fun n => n.toNat.toUInt32

def decodeExitCode (v : Json.Value) : Json.Decoded (Option Int32) :=
  v.decodeOptional fun v =>
    (v.decodeInteger (-2147483648) 2147483647 "i32").map Int32.ofInt

def Draft.put (d : Draft) (name : String) (v : Json.Value) : Json.Decoded Draft :=
  if name = "id" then
    if d.id.isSome then .error (.duplicateField name)
    else (decodeId v).map fun x => { d with id := some x }
  else if name = "exit_code" then
    if d.exitCode.isSome then .error (.duplicateField name)
    else (decodeExitCode v).map fun x => { d with exitCode := some x }
  else v.skip.map fun _ => d

def Draft.finish (d : Draft) : Json.Decoded ProcessInfo :=
  match d.id with
  | none => .error (.missingField "id")
  | some id => .ok ⟨id, d.exitCode.join⟩

def shape : Json.Shape Draft ProcessInfo where
  title := "struct ProcessInfo"
  fields := ["id", "exit_code"]
  required := 2
  start := {}
  put := Draft.put
  finish := Draft.finish

def ofJson : Json.Value → Json.Decoded ProcessInfo := shape.decode

def toJson (p : ProcessInfo) : Json.Value :=
  let exitCode := match p.exitCode with
    | none => .null
    | some c => .ofInt c.toInt
  .ofMembers [("id", .ofInt p.id.toNat), ("exit_code", exitCode)]

end ProcessInfo

end Overseer
