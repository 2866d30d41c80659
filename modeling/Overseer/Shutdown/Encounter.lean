import Overseer.Shutdown.Directory
import Overseer.Shutdown.Signaler

/-!
One signaler and what it meets at the other end of its channel: nobody, a listener, something that
refuses connections, or a server that plays a part of its own.
-/
namespace Overseer.Shutdown

/-- A server that takes one connection, perhaps reads the request, writes pieces each after a wait,
and then closes or holds the connection. -/
structure Part where
  reads : Bool
  pieces : List (Nat × List UInt8)
  closes : Bool
  deriving DecidableEq, Repr

inductive Peer where
  | nobody
  | listener
  | refusing
  | playing (part : Part)
  deriving DecidableEq, Repr

namespace Encounter

def attemptAt (channel : String) (peer : Peer) (appears now : Nat) : Signaler.Attempt :=
  let path := socketPath defaultTemporary channel
  match addressError? path with
  | some e => .failed e
  | none =>
    match socketPlace .usual path with
    | .error e => .failed (.errno e)
    | .ok _ =>
      let there := appears ≤ now
      match peer with
      | .nobody => .failed (.errno .noSuchFile)
      | .refusing => .failed (.errno (if there then .connectionRefused else .noSuchFile))
      | .listener | .playing _ => if there then .connected 0 else .failed (.errno .noSuchFile)

def attemptTimes : List Nat :=
  (List.range (connectLimit / connectInterval)).map (· * connectInterval)

/-- Makes attempt after attempt, and gives the time at which that ends and the times of those made. -/
def connecting (attempts : Nat → Signaler.Attempt) (s : Signaler) (tried : List Nat) :
    List Nat → Signaler × Nat × List Nat
  | [] => (s.expire connectLimit, connectLimit, tried)
  | now :: later =>
    let (s, tried) :=
      if s.attempts now then (s.attempt now (attempts now), tried ++ [now]) else (s, tried)
    match s.phase with
    | .connecting _ => connecting attempts s tried later
    | _ => (s, now, tried)

/-- What the other end does, each with the time since the connection came about. -/
inductive Deed where
  | writes (bytes : List UInt8)
  | goes (ending : Ending)
  deriving DecidableEq, Repr

def deeds (part : Part) (clock : Nat) : List (Nat × List UInt8) → List (Nat × Deed)
  | [] => if part.closes then [(clock, .goes (if part.reads then .closed else .reset))] else []
  | (wait, bytes) :: pieces => (clock + wait, .writes bytes) :: deeds part (clock + wait) pieces

def exchanging (s : Signaler) (connected : Nat) (received : List UInt8) :
    List (Nat × Deed) → Signaler × Nat
  | [] => (s.expire (connected + exchangeLimit), connected + exchangeLimit)
  | (clock, deed) :: later =>
    if exchangeLimit ≤ clock then
      (s.expire (connected + exchangeLimit), connected + exchangeLimit)
    else
      let (received, ending) := match deed with
        | .writes bytes => (received ++ bytes, none)
        | .goes ending => (received, some ending)
      let s := s.hear received ending
      if s.answer?.isSome then (s, connected + clock)
      else exchanging s connected received later

/-- What a signaler meets: what an attempt at a time comes to, and once it is connected how writing
the request goes and what the other end does. -/
structure Course where
  attempts : Nat → Signaler.Attempt
  writing : Signaler.Writing := .done
  deeds : List (Nat × Deed)

structure Call where
  answer : Option Answer
  elapsed : Nat
  /-- The times of the attempts to connect. -/
  tried : List Nat
  /-- What went out on the connection. -/
  written : List UInt8

def call (channel : String) (course : Course) : Call :=
  let (s, now, tried) := connecting course.attempts (.begin channel 0) [] attemptTimes
  match s.phase with
  | .exchanging _ _ =>
    let s := s.wrote course.writing
    if s.answer?.isSome then ⟨s.answer?, now, tried, course.writing.bytes⟩
    else
      let (s, now) := exchanging s now [] course.deeds
      ⟨s.answer?, now, tried, course.writing.bytes⟩
  | _ => ⟨s.answer?, now, tried, []⟩

def Call.acknowledged (c : Call) : Bool :=
  match c.answer with
  | some (.ok _) => true
  | _ => false

end Encounter

namespace Peer

open Encounter

def deeds : Peer → List (Nat × Deed)
  | .nobody | .refusing => []
  | .listener => [(0, .writes acknowledgementLine)]
  | .playing part => Encounter.deeds part 0 part.pieces

def read (written : List UInt8) : Peer → List UInt8
  | .playing part => if part.reads then written else []
  | _ => []

end Peer

namespace Encounter

structure Outcome extends Call where
  request : List UInt8

def run (channel : String) (peer : Peer) (appears : Nat) : Outcome :=
  let c := call channel { attempts := attemptAt channel peer appears, deeds := peer.deeds }
  { c with request := peer.read c.written }

end Encounter

end Overseer.Shutdown
