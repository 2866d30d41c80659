import Overseer.Text.Blank
import Overseer.Warning

/-!
The parent of a process, which it watches in order not to outlive it. Its id is given explicitly or
read from the environment.
-/
namespace Overseer

namespace Parent

/-- A parent's id, or none; the variable that was asked for it, if any, and what was wrong. -/
structure Resolution where
  pid : Option UInt32
  lookedUp : Option String := none
  warnings : List Warning := []
  deriving DecidableEq, Repr

/-- An explicit id wins and leaves the environment alone. A value of the variable may stand between
white space; one that is no id counts as absent. -/
def resolve (explicit : Option UInt32) (lookup : String → Option String) : Resolution :=
  match explicit with
  | some pid => ⟨some pid, none, []⟩
  | none =>
    match lookup parentVariable with
    | none => ⟨none, some parentVariable, []⟩
    | some value =>
      match Text.parseNatural greatest32 (Text.trimBlank value) with
      | .ok pid => ⟨some pid.toUInt32, some parentVariable, []⟩
      | .error e => ⟨none, some parentVariable, [.unreadableParent value e]⟩

end Parent

end Overseer
