import Overseer.SystemError.Table

/-!
Errors of the operating system and of the calls made to it: each has a kind, by which callers tell
errors apart, and a text for people.
-/
namespace Overseer

structure Errno where
  number : Nat
  deriving DecidableEq, Repr

namespace Errno

@[match_pattern] def notPermitted : Errno := ⟨1⟩
@[match_pattern] def noSuchFile : Errno := ⟨2⟩
@[match_pattern] def argumentsTooLong : Errno := ⟨7⟩
@[match_pattern] def notExecutable : Errno := ⟨8⟩
@[match_pattern] def accessDenied : Errno := ⟨13⟩
@[match_pattern] def fileExists : Errno := ⟨17⟩
@[match_pattern] def notADirectory : Errno := ⟨20⟩
@[match_pattern] def isADirectory : Errno := ⟨21⟩
@[match_pattern] def invalidArgument : Errno := ⟨22⟩
@[match_pattern] def tooManyOpenFiles : Errno := ⟨24⟩
@[match_pattern] def brokenPipe : Errno := ⟨32⟩
@[match_pattern] def nameTooLong : Errno := ⟨36⟩
@[match_pattern] def addressInUse : Errno := ⟨98⟩
@[match_pattern] def connectionReset : Errno := ⟨104⟩
@[match_pattern] def connectionRefused : Errno := ⟨111⟩

def kind (e : Errno) : ErrorKind :=
  ((SystemError.table.lookup e.number).map (·.1)).getD .uncategorized

/-- Numbers that belong to no error are named all the same. -/
def text (e : Errno) : String :=
  ((SystemError.table.lookup e.number).map (·.2)).getD ("Unknown error " ++ toString e.number)

end Errno

/-- Why a call failed: the system refused it, or it was refused before the system saw it. -/
inductive SystemError where
  | errno (e : Errno)
  | refused (kind : ErrorKind) (text : String)
  deriving DecidableEq, Repr

namespace SystemError

def kind : SystemError → ErrorKind
  | .errno e => e.kind
  | .refused kind _ => kind

def message : SystemError → String
  | .errno e => e.text ++ " (os error " ++ toString e.number ++ ")"
  | .refused _ text => text

end SystemError

end Overseer
