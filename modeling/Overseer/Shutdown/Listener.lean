import Overseer.Shutdown.Request

/-!
The listener: it serves one connection after the other until one sends the request to exit, which it
acknowledges before it calls back, once; or until it is stopped. A stop ends its waits only. They are
polled, and each poll looks for a stop first and for nothing but what it waits for from then on. What
the listener does to the world is a list of effects.
-/
namespace Overseer.Shutdown

inductive ListenOutcome where
  | shutdownRequested
  | cancelled
  deriving DecidableEq, Repr

def ListenOutcome.name : ListenOutcome → String
  | .shutdownRequested => "ShutdownRequested"
  | .cancelled => "Cancelled"

/-- How long a listener waits after an accept that failed, in milliseconds. -/
def acceptPause : Nat := 50

namespace Listener

inductive Phase where
  | accepting
  | serving (connection : Nat) (reader : RequestReader)
  | pausing (due : Nat)
  /-- So much of the acknowledgement is still to be written. -/
  | acknowledging (connection : Nat) (rest : List UInt8)
  | finished (outcome : ListenOutcome)
  deriving DecidableEq, Repr

inductive Event where
  | accepted (connection : Nat)
  | acceptFailed (now : Nat)
  | received (bytes : List UInt8)
  /-- The client has ended its side, or reading failed. -/
  | ended
  | resumed
  /-- So many bytes were written. -/
  | wrote (count : Nat)
  | writeFailed
  | stopped
  /-- A poll of the wait begins. -/
  | woken
  /-- The poll has come to nothing more. -/
  | pended
  deriving DecidableEq, Repr

inductive Effect where
  /-- Begins to write the acknowledgement. -/
  | acknowledge (connection : Nat)
  | write (connection : Nat) (bytes : List UInt8)
  | callBack
  | close (connection : Nat)
  /-- Gives up the path and all connections that wait. -/
  | release
  deriving DecidableEq, Repr

end Listener

structure Listener where
  phase : Listener.Phase := .accepting
  /-- It was stopped, which may not be noticed yet. -/
  stopping : Bool := false
  /-- A poll of the wait is under way, which has looked for a stop. -/
  polling : Bool := false
  deriving DecidableEq, Repr

namespace Listener

def outcome? (l : Listener) : Option ListenOutcome :=
  match l.phase with
  | .finished o => some o
  | _ => none

/-- A wait begins without being polled. -/
def enter (l : Listener) (phase : Phase) : Listener := { l with phase, polling := false }

/-- A listener that was stopped gives up a wait as soon as it looks. -/
def look (l : Listener) (held : List Effect) : Listener × List Effect :=
  if l.stopping then (l.enter (.finished .cancelled), held ++ [.release])
  else ({ l with polling := true }, [])

/-- Whether the next thing that a wait could come to is not looked at any more. -/
def leaves (l : Listener) : Bool := l.stopping && !l.polling

/-- What comes of a wait. If it is not being polled, this takes a poll, which looks for a stop. -/
def await (l : Listener) (held : List Effect) (next : Listener × List Effect) :
    Listener × List Effect :=
  if l.leaves then (l.enter (.finished .cancelled), held ++ [.release]) else next

def step (l : Listener) (e : Event) : Listener × List Effect :=
  match l.phase, e with
  | .accepting, .accepted c => l.await [] (l.enter (.serving c {}), [])
  | .accepting, .acceptFailed now => l.await [] (l.enter (.pausing (now + acceptPause)), [])
  | .accepting, .woken => l.look []
  | .accepting, .pended => ({ l with polling := false }, [])
  | .serving c reader, .received bytes =>
    l.await [.close c] <|
      match reader.feed bytes with
      | some reader => ({ l with phase := .serving c reader }, [])
      | none => (l.enter (.acknowledging c acknowledgementLine), [.acknowledge c])
  | .serving c _, .ended => l.await [.close c] (l.enter .accepting, [.close c])
  | .serving c _, .woken => l.look [.close c]
  | .serving _ _, .pended => ({ l with polling := false }, [])
  | .pausing _, .resumed => (l.enter .accepting, [])
  | .acknowledging c rest, .wrote n =>
    if n < rest.length then
      (l.enter (.acknowledging c (rest.drop n)), [.write c (rest.take n)])
    else
      (l.enter (.finished .shutdownRequested),
        [.write c rest, .callBack, .close c, .release])
  -- Who was asked to exit does so also if it cannot say so.
  | .acknowledging c _, .writeFailed =>
    (l.enter (.finished .shutdownRequested), [.callBack, .close c, .release])
  | .finished _, .stopped => (l, [])
  | _, .stopped => ({ l with stopping := true }, [])
  | _, _ => (l, [])

end Listener

end Overseer.Shutdown
