import Overseer.Failure
import Overseer.Lifecycle
import Overseer.Text.Integer

/-!
What is logged as a warning or worse: a cause, from which the message and the named fields beside it
are read off.
-/
namespace Overseer

def parentVariable : String := "PROCWARDEN_PARENT_PID"

inductive Warning where
  | unreadableParent (value : String) (error : IntegerError)
  | unknownParent
  | unobservable (cause : SystemError)
  | notPermitted (source : State) (trigger : Trigger)
  | startFailed
  /-- The request to exit was not acknowledged before the process's time was up. -/
  | requestTimedOut
  /-- The process did not end in the time it was given. -/
  | exitTimedOut
  /-- The process had ended before it could be killed. -/
  | alreadyEnded
  deriving DecidableEq, Repr

namespace Warning

def message : Warning → String
  | .unreadableParent _ _ => "ignoring unparseable parent process id"
  | .unknownParent => "no parent process id, parent monitoring is disabled"
  | .unobservable _ => "could not subscribe to process exit, treating it as gone"
  | .notPermitted _ _ => "trigger not permitted in this state, ignoring"
  | .startFailed => "failed to start process"
  | .requestTimedOut => "exit request timed out, killing process"
  | .exitTimedOut => "process did not exit in time, killing it"
  | .alreadyEnded => "could not kill process, it already exited"

def fields : Warning → List (String × String)
  | .unreadableParent value error =>
    [("var", parentVariable), ("value", Text.quote value), ("err", error.message)]
  | .unobservable cause => [("err", cause.message)]
  | .notPermitted source trigger => [("from", source.name), ("trigger", trigger.name)]
  | _ => []

end Warning

end Overseer
