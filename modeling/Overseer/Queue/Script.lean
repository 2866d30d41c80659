import Overseer.Queue

/-!
Scripts for a queue, and what can be seen of it after each step of one.
-/
namespace Overseer.Queue

variable {α : Type}

inductive Step (α : Type) where
  | enqueue (name : String) (operation : Operation α)
  | dispose
  | unlock (gate : String)
  | forget (name : String)
  | settle
  | advance (ms : Nat)
  deriving Repr

/-- What a step shows: what was noted, which tickets resolved, and how the queue is left. -/
structure View (α : Type) where
  noted : List String
  resolved : List (String × Outcome α)
  waiting : Nat
  pending : Nat
  draining : Bool
  disposed : Bool

def apply (q : Queue α) : Step α → Queue α
  | .enqueue name operation => q.enqueue name operation
  | .dispose => q.dispose
  | .unlock gate => q.unlock gate
  | .forget name => q.forget name
  | .settle => q.settle
  | .advance ms => q.advance ms

def view (q : Queue α) : View α × Queue α :=
  let resolved := q.tickets.filterMap fun t => t.outcome.map fun o => (t.name, o)
  let waiting := q.tickets.filter fun t => t.outcome.isNone
  (⟨q.noted.reverse, resolved, waiting.length, q.pending.length, q.draining, q.disposed⟩,
    { q with tickets := waiting, noted := [] })

def execute (q : Queue α) : List (Step α) → List (View α)
  | [] => []
  | s :: steps =>
    let (shown, q) := (q.apply s).view
    shown :: execute q steps

def yesNo (b : Bool) : String := if b then "true" else "false"

def View.describe (v : View α) : String :=
  "OperationQueue \x7b pending: " ++ toString v.pending ++ ", draining: " ++ yesNo v.draining ++
    ", disposed: " ++ yesNo v.disposed ++ ", .. \x7d"

end Overseer.Queue
