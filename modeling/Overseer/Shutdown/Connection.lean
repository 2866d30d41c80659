import Overseer.Shutdown.Reply

/-!
A connection between a client and a listener: two reliable streams of bytes, each of which either
side may end. What is written waits until it is read.
-/
namespace Overseer.Shutdown

/-- What a client has left open of its side. -/
inductive ClientSide where
  | open
  /-- Nothing more is sent. -/
  | halfClosed
  | closed
  deriving DecidableEq, Repr

structure Connection where
  number : Nat
  client : ClientSide := .open
  /-- What the client sent and the listener has not read. -/
  unread : List UInt8 := []
  /-- What came back. -/
  received : List UInt8 := []
  /-- How the listener's side went away, and whether the client was still there to see it. -/
  ending : Option Ending := none
  unseen : Bool := false
  deriving DecidableEq, Repr

namespace Connection

def hangUp (c : Connection) : Connection :=
  if c.ending.isSome then c
  else
    { c with
      ending := some (if c.unread.isEmpty then .closed else .reset)
      unseen := c.client = .closed }

def writeBack (c : Connection) (bytes : List UInt8) : Connection :=
  if c.client = .closed then c else { c with received := c.received ++ bytes }

def isWritable (c : Connection) : Bool :=
  c.ending.isNone && c.client = .open

def put (c : Connection) (bytes : List UInt8) : Connection :=
  { c with unread := c.unread ++ bytes }

def take (c : Connection) (count : Nat) : Connection :=
  { c with unread := c.unread.drop count }

def halfClose (c : Connection) : Connection :=
  if c.client = .open then { c with client := .halfClosed } else c

def close (c : Connection) : Connection :=
  { c with client := .closed }

end Connection

end Overseer.Shutdown
