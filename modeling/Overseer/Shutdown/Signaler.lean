import Overseer.Shutdown.Reply

/-!
The signaler: it tries to connect again and again as long as nobody is there, writes the request and
waits for the answer. Connecting and the exchange each have a limit.
-/
namespace Overseer.Shutdown

namespace Signaler

inductive Phase where
  /-- The next attempt is made at `due`. -/
  | connecting (due : Nat)
  | exchanging (connection : Nat) (deadline : Nat)
  | finished (answer : Answer)

inductive Attempt where
  | connected (connection : Nat)
  | failed (e : SystemError)
  deriving DecidableEq, Repr

inductive Writing where
  | done
  /-- Only so many bytes of it went out. -/
  | cut (count : Fin requestLine.length) (e : SystemError)
  | unflushed (e : SystemError)
  deriving DecidableEq, Repr

def Writing.bytes : Writing → List UInt8
  | .done | .unflushed _ => requestLine
  | .cut count _ => requestLine.take count

end Signaler

structure Signaler where
  channel : String
  start : Nat
  phase : Signaler.Phase

namespace Signaler

def begin (channel : String) (now : Nat) : Signaler :=
  ⟨channel, now, .connecting now⟩

def answer? (s : Signaler) : Option Answer :=
  match s.phase with
  | .finished a => some a
  | _ => none

def attempts (s : Signaler) (now : Nat) : Bool :=
  match s.phase with
  | .connecting due => due ≤ now && now < s.start + connectLimit
  | _ => false

def attempt (s : Signaler) (now : Nat) : Attempt → Signaler
  | .connected c => { s with phase := .exchanging c (now + exchangeLimit) }
  | .failed e =>
    if retries e then { s with phase := .connecting (now + connectInterval) }
    else { s with phase := .finished (.error (.connect s.channel e)) }

def wrote (s : Signaler) : Writing → Signaler
  | .done => s
  | .cut _ e => { s with phase := .finished (.error (ShutdownError.writeRequest e)) }
  | .unflushed e => { s with phase := .finished (.error (ShutdownError.flushRequest e)) }

/-- What was received so far may decide the answer. -/
def hear (s : Signaler) (received : List UInt8) (ending : Option Ending) : Signaler :=
  match s.phase with
  | .exchanging _ _ =>
    match judge? received ending with
    | some a => { s with phase := .finished a }
    | none => s
  | _ => s

def expire (s : Signaler) (now : Nat) : Signaler :=
  match s.phase with
  | .connecting _ =>
    if s.start + connectLimit ≤ now then
      { s with phase := .finished (.error ShutdownError.connecting) }
    else s
  | .exchanging _ deadline =>
    if deadline ≤ now then
      { s with phase := .finished (.error ShutdownError.unacknowledged) }
    else s
  | .finished _ => s

def due? (s : Signaler) : Option Nat :=
  match s.phase with
  | .connecting due => some (min due (s.start + connectLimit))
  | .exchanging _ deadline => some deadline
  | .finished _ => none

end Signaler

end Overseer.Shutdown
