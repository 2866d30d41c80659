/-!
Broadcasts, as those see them who receive. A receiver holds what was sent since it subscribed and
not yet taken, but only so many of the newest; how many it lost is told before the next item. A
waiter takes from a receiver until it has what it wants.
-/
namespace Overseer.Broadcast

structure Receiver (α : Type) where
  capacity : Nat
  /-- Oldest first. -/
  held : List α := []
  /-- Lost, and not told yet. -/
  missed : Nat := 0
  deriving DecidableEq, Repr

inductive Receipt (α : Type) where
  | missed (count : Nat)
  | item (a : α)
  deriving DecidableEq, Repr

namespace Receiver

variable {α : Type}

/-- Items that are sent push out the oldest ones for which there is no more room. -/
def push (r : Receiver α) (items : List α) : Receiver α :=
  let all := r.held ++ items
  let surplus := all.length - r.capacity
  { r with held := all.drop surplus, missed := r.missed + surplus }

def receive? (r : Receiver α) : Option (Receipt α × Receiver α) :=
  if r.missed = 0 then
    match r.held with
    | [] => none
    | a :: rest => some (.item a, { r with held := rest })
  else some (.missed r.missed, { r with missed := 0 })

def isEmpty (r : Receiver α) : Bool :=
  r.missed = 0 && r.held.isEmpty

def emptied (r : Receiver α) : Receiver α :=
  { r with held := [], missed := 0 }

def receipts (r : Receiver α) : List (Receipt α) :=
  (if r.missed = 0 then [] else [.missed r.missed]) ++ r.held.map .item

end Receiver

/-- Waits for an item it wants. The outcome tells whether one came. -/
structure Waiter (α : Type) where
  wanted : α → Bool
  receiver : Receiver α
  outcome : Option Bool := none

namespace Waiter

variable {α : Type}

def hear (w : Waiter α) (items : List α) : Waiter α :=
  { w with receiver := w.receiver.push items }

def look (w : Waiter α) : Waiter α :=
  if w.outcome.isSome then w
  else if w.receiver.held.any w.wanted then { w with outcome := some true }
  else { w with receiver := w.receiver.emptied }

def giveUp (w : Waiter α) (gone : Bool) : Waiter α :=
  if w.outcome.isNone && gone then { w with outcome := some false } else w

/-- Takes what is there, and looks only then whether the sender is gone. -/
def poll (w : Waiter α) (gone : Bool) : Waiter α :=
  w.look.giveUp gone

end Waiter

end Overseer.Broadcast
