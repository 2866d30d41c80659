import Overseer.SystemError
import Overseer.Text.Quoted

/-!
The errors of the library. Each is a cause; its message, its code and the error beneath it are read
off that cause.
-/
namespace Overseer

structure StartError where
  program : String
  cause : SystemError
  deriving DecidableEq, Repr

inductive QueueError where
  | cancelled
  | panicked
  deriving DecidableEq, Repr

/-- Why a request to exit was not acknowledged. `stage` says what the caller was waiting for when
its time was up, and `action` what it was doing on the connection when that failed. -/
inductive ShutdownError where
  | connect (channel : String) (cause : SystemError)
  | timeout (stage : String)
  | io (action : String) (cause : SystemError)
  | closed
  | unexpectedReply (reply : String)
  deriving DecidableEq, Repr

namespace StartError

def message (e : StartError) : String :=
  "failed to start " ++ e.program ++ ": " ++ e.cause.message

def code : String := "procwarden::supervisor::start"

end StartError

namespace QueueError

def name : QueueError → String
  | .cancelled => "Cancelled"
  | .panicked => "Panicked"

def message : QueueError → String
  | .cancelled => "operation cancelled: queue disposed"
  | .panicked => "operation panicked"

def code : QueueError → String
  | .cancelled => "procwarden::queue::cancelled"
  | .panicked => "procwarden::queue::panicked"

end QueueError

namespace ShutdownError

def connecting : ShutdownError := .timeout "connecting"

def unacknowledged : ShutdownError := .timeout "waiting for acknowledgement"

def writeRequest : SystemError → ShutdownError := .io "write request"

def flushRequest : SystemError → ShutdownError := .io "flush request"

def readReply : SystemError → ShutdownError := .io "read reply"

def name : ShutdownError → String
  | .connect _ _ => "Connect"
  | .timeout _ => "Timeout"
  | .io _ _ => "Io"
  | .closed => "Closed"
  | .unexpectedReply _ => "UnexpectedReply"

def message : ShutdownError → String
  | .connect channel cause => "connect to " ++ channel ++ ": " ++ cause.message
  | .timeout stage => "timed out while " ++ stage
  | .io action cause => "io(" ++ action ++ "): " ++ cause.message
  | .closed => "channel closed before acknowledgement"
  | .unexpectedReply reply => "unexpected reply: " ++ Text.quote reply

def code : ShutdownError → String
  | .connect _ _ => "procwarden::shutdown::connect"
  | .timeout _ => "procwarden::shutdown::timeout"
  | .io _ _ => "procwarden::shutdown::io"
  | .closed => "procwarden::shutdown::closed"
  | .unexpectedReply _ => "procwarden::shutdown::unexpected_reply"

def source : ShutdownError → Option SystemError
  | .connect _ cause => some cause
  | .io _ cause => some cause
  | _ => none

end ShutdownError

end Overseer
