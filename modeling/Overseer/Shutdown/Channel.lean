/-!
Shutdown channels: a process that wants to be asked to exit listens on one, by default the one named
after its own id. The request and its acknowledgement are one line each.
-/
namespace Overseer.Shutdown

structure Channel where
  name : String
  deriving DecidableEq, Repr

namespace Channel

def stem : String := "procwarden"

def ofProcess (pid : UInt32) : Channel :=
  ⟨stem ++ "-" ++ toString pid.toNat⟩

end Channel

def channelVariable : String := "PROCWARDEN_PIPE_NAME"

def exitCommand : String := "EXIT"

def acknowledgement : String := "OK"

/-- How long a signaler tries to connect, in milliseconds. -/
def connectLimit : Nat := 3000

/-- How long it waits for its request to be acknowledged once connected. -/
def exchangeLimit : Nat := 3000

def connectInterval : Nat := 50

end Overseer.Shutdown
