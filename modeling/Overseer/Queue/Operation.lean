/-!
Operations that a queue runs, one at a time. Some are done as soon as they begin, some wait for
time, for a permit or for the queue to be disposed of, and some put more operations into the queue.
-/
namespace Overseer.Queue

inductive Operation (α : Type) where
  /-- Does nothing and notes nothing. -/
  | idle
  | action
  | value (a : α)
  | panic
  | panicAfter (ms : Nat)
  | sleep (ms : Nat) (a : α)
  /-- Waits for a permit of a gate and takes it. -/
  | pass (gate : String)
  | untilDisposed (a : α)
  | dispose
  /-- Adds a permit to a gate. -/
  | unlock (gate : String)
  /-- Puts operations with their tickets into the same queue. -/
  | nest (inner : List (String × Operation α))
  /-- Puts an operation into the same queue and waits for it, at most so long. -/
  | nestAwait (ms : Nat)
  /-- Nothing is put into the queue at all; there is only a ticket. -/
  | cancelled
  deriving Repr, Inhabited

namespace Operation

variable {α : Type}

mutual

/-- A bound on the steps that an operation and all it puts into the queue can take. -/
def weight : Operation α → Nat
  | .nest inner => weightAll inner + 2
  | .nestAwait _ => 4
  | _ => 2

def weightAll : List (String × Operation α) → Nat
  | [] => 0
  | (_, op) :: rest => op.weight + weightAll rest

end

end Operation

inductive Yield (α : Type) where
  | nothing
  | value (a : α)
  /-- Whether the queue was disposed of by then. -/
  | disposal (disposed : Bool)
  deriving DecidableEq, Repr

end Overseer.Queue
