import Mathlib.Logic.Relation
import Overseer.Proofs.Shutdown.Moves
import Overseer.Proofs.Shutdown.Requests
import Overseer.Proofs.Shutdown.Streams

/-!
Signalers and other clients that meet one listener, in any interleaving of what each of them does.
Connections are reliable: the listener reads what was sent, in pieces of any length. A stop can come
at any time, as can errors and the end of any client's patience.
-/
namespace Overseer.Shutdown

/-- A world, and what cannot be seen in it any more. -/
structure Meeting where
  world : World
  /-- The connection that each signaler made. -/
  lines : Nat → Option Nat := fun _ => none
  /-- What a client has sent on each connection, and what the listener has read of it. -/
  sent : Nat → List UInt8 := fun _ => []
  heard : Nat → List UInt8 := fun _ => []

namespace Meeting

/-- What can happen to the listener `k`, and what it takes out of the world. All but a connection and
bytes that are read can come at any time: an accept, a read or a write may fail, and a client that
went away is noticed sooner or later. -/
inductive Occurs (k : Nat) (m : Meeting) : Listener.Event → Meeting → Prop where
  | accepted {s : Station} {c : Nat} {rest : List Nat} (here : m.world.station? k = some s)
      (phase : s.listener.phase = .accepting) (stays : s.listener.leaves = false)
      (waiting : s.backlog = c :: rest) :
      Occurs k m (.accepted c)
        { m with world := m.world.mapStation k fun s => { s with backlog := rest } }
  | received {s : Station} {c : Nat} {reader : RequestReader} {connection : Connection}
      (count : Nat) (here : m.world.station? k = some s)
      (phase : s.listener.phase = .serving c reader) (stays : s.listener.leaves = false)
      (made : m.world.connection? c = some connection) :
      Occurs k m (.received (connection.unread.take count))
        { m with
          world := m.world.mapConnection c fun c => c.take count
          heard := Function.update m.heard c (m.heard c ++ connection.unread.take count) }
  | other (e : Listener.Event) (connects : ∀ c, e ≠ .accepted c)
      (reads : ∀ bytes, e ≠ .received bytes) : Occurs k m e m

inductive Step (k : Nat) (m : Meeting) : Meeting → Prop where
  /-- The time is another, and files, their directory and file descriptors come and go. -/
  | elapse (now : Nat) (files : FileTree) (temporary : String) (starved : Bool) :
      Step k m { m with world := { m.world with now, files, temporary, starved } }
  /-- The listener finds that nobody waits. -/
  | lull : Step k m { m with world := m.world.mapStation k fun s => { s with ready := false } }
  | call (name channel : String) : Step k m { m with world := m.world.signal name channel }
  | refuse {i : Nat} {a : SignalerAt} {due : Nat} (e : SystemError)
      (here : m.world.signalers[i]? = some a) (phase : a.signaler.phase = .connecting due) :
      Step k m { m with
        world := m.world.setSignaler i
          { a with signaler := a.signaler.attempt m.world.now (.failed e) } }
  | connect {i : Nat} {a : SignalerAt} {due c : Nat} {w : World}
      (here : m.world.signalers[i]? = some a) (phase : a.signaler.phase = .connecting due)
      (made : m.world.connect a.signaler.channel .open = .ok (c, w)) :
      Step k m { m with
        world := w.setSignaler i
          { a with signaler := a.signaler.attempt m.world.now (.connected c) }
        lines := Function.update m.lines i (some c) }
  /-- A part of the request is written. -/
  | ask {i : Nat} {a : SignalerAt} {c deadline : Nat} {bytes : List UInt8} {w : World}
      (here : m.world.signalers[i]? = some a)
      (phase : a.signaler.phase = .exchanging c deadline)
      (part : m.sent c ++ bytes <+: requestLine) (sent : m.world.send c bytes = (true, w)) :
      Step k m { m with world := w, sent := Function.update m.sent c (m.sent c ++ bytes) }
  /-- What came back so far is looked at, and how the connection ended once all was. -/
  | hear {i : Nat} {a : SignalerAt} {c deadline : Nat} {connection : Connection}
      {bytes : List UInt8} {ending : Option Ending} (here : m.world.signalers[i]? = some a)
      (phase : a.signaler.phase = .exchanging c deadline)
      (made : m.world.connection? c = some connection) (part : bytes <+: connection.received)
      (sound : ending = none ∨ bytes = connection.received ∧ ending = connection.ending) :
      Step k m { m with
        world := m.world.setSignaler i { a with signaler := a.signaler.hear bytes ending } }
  /-- Writing the request or reading the answer fails. -/
  | fail {i : Nat} {a : SignalerAt} {c deadline : Nat} (e : ShutdownError)
      (here : m.world.signalers[i]? = some a)
      (phase : a.signaler.phase = .exchanging c deadline) :
      Step k m { m with
        world := m.world.setSignaler i
          { a with signaler := { a.signaler with phase := .finished (.error e) } } }
  | expire {i : Nat} {a : SignalerAt} (here : m.world.signalers[i]? = some a) :
      Step k m { m with
        world := m.world.setSignaler i { a with signaler := a.signaler.expire m.world.now } }
  /-- A signaler that has its answer closes its connection. -/
  | leave {i c : Nat} (line : m.lines i = some c)
      (answered : ((m.world.signalers[i]?).bind fun a => a.signaler.answer?).isSome = true) :
      Step k m { m with world := m.world.close c }
  /-- Other clients connect, send what they like, and go. -/
  | visit {name : String} {client : ClientSide} {c : Nat} {w : World}
      (made : m.world.connect name client = .ok (c, w)) : Step k m { m with world := w }
  | send {n : Nat} {bytes : List UInt8} {w : World} (other : ∀ i, m.lines i ≠ some n)
      (sent : m.world.send n bytes = (true, w)) :
      Step k m { m with world := w, sent := Function.update m.sent n (m.sent n ++ bytes) }
  | halfClose {n : Nat} (other : ∀ i, m.lines i ≠ some n) :
      Step k m { m with world := m.world.halfClose n }
  | close {n : Nat} (other : ∀ i, m.lines i ≠ some n) :
      Step k m { m with world := m.world.close n }
  | listen {e : Listener.Event} {m' : Meeting} (occurs : Occurs k m e m') :
      Step k m { m' with world := m'.world.tell k e }

abbrev Steps (k : Nat) : Meeting → Meeting → Prop :=
  Relation.ReflTransGen (Step k)

/-- A meeting that began when the listener `k` was bound, with nobody there yet. -/
def Reachable (k : Nat) (m : Meeting) : Prop :=
  ∃ (w w' : World) (name : String), w.stations = [] ∧ w.connections = [] ∧ w.signalers = [] ∧
    w.listen name = (.ok k, w') ∧ Steps k { world := w' } m

def Acknowledged (m : Meeting) (i : Nat) : Prop :=
  ∃ a, m.world.signalers[i]? = some a ∧ a.signaler.answer? = some (.ok ())

theorem acknowledged_of_any {m : Meeting} {i : Nat}
    (answered : (m.world.signalers[i]?.bind fun a => a.signaler.answer?).any (·.isOk) = true) :
    m.Acknowledged i := by
  obtain ⟨answer, given, ok⟩ := Option.any_eq_true .. |>.mp answered
  obtain ⟨a, here, given⟩ := Option.bind_eq_some_iff.mp given
  cases answer with
  | error e => cases ok
  | ok u => exact ⟨a, here, given⟩

end Meeting

end Overseer.Shutdown
