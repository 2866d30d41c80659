import Overseer.Failure
import Overseer.Queue.Operation

/-!
The operation queue. Operations are taken in the order in which they were put in; the next is taken
once the one before is done. Whoever puts one in holds a ticket for it, which resolves to what the
operation gives, to the news that it panicked, or that it was cancelled because the queue was
disposed of before it began. One drain loop takes the operations; it runs from the moment in which
something is put into an idle queue until it finds the queue empty.
-/
namespace Overseer

namespace Queue

abbrev Outcome (α : Type) := Except QueueError (Yield α)

structure Job (α : Type) where
  ticket : Option Nat
  name : String
  operation : Operation α
  deriving Repr

inductive Wait where
  | time (due : Nat)
  | permit (gate : String)
  | disposal
  deriving DecidableEq, Repr

structure Running (α : Type) where
  job : Job α
  wait : Wait
  deriving Repr

structure Ticket (α : Type) where
  name : String
  number : Nat
  outcome : Option (Outcome α) := none

end Queue

structure Queue (α : Type) where
  pending : List (Queue.Job α) := []
  running : Option (Queue.Running α) := none
  draining : Bool := false
  disposed : Bool := false
  /-- The permits of each gate, one entry for each. -/
  permits : List String := []
  tickets : List (Queue.Ticket α) := []
  /-- The number of the next ticket. -/
  next : Nat := 0
  /-- Milliseconds since the beginning. -/
  now : Nat := 0
  /-- What operations noted, last first. -/
  noted : List String := []

namespace Queue

variable {α : Type}

def note (q : Queue α) (what name : String) : Queue α :=
  { q with noted := (what ++ " " ++ name) :: q.noted }

def addTicket (q : Queue α) (t : Ticket α) : Queue α :=
  { q with tickets := q.tickets.filter (fun u => u.name ≠ t.name) ++ [t] }

def forget (q : Queue α) (name : String) : Queue α :=
  { q with tickets := q.tickets.filter fun t => t.name ≠ name }

def resolve (q : Queue α) (number : Option Nat) (outcome : Outcome α) : Queue α :=
  { q with
    tickets := q.tickets.map fun t =>
      if some t.number = number then { t with outcome := some outcome } else t }

/-- Puts a job in and sees to it that a drain loop runs. -/
def push (q : Queue α) (job : Job α) : Queue α :=
  { q with pending := q.pending ++ [job], draining := true }

/-- Puts an operation in, unless the queue was disposed of: then its ticket is cancelled at once. -/
def enqueue (q : Queue α) (name : String) (operation : Operation α) : Queue α :=
  let number := q.next
  let q := { q with next := number + 1 }
  match operation, q.disposed with
  | .cancelled, _ | _, true => q.addTicket ⟨name, number, some (.error .cancelled)⟩
  | operation, false => (q.addTicket ⟨name, number, none⟩).push ⟨some number, name, operation⟩

def enqueueAll (q : Queue α) : List (String × Operation α) → Queue α
  | [] => q
  | (name, operation) :: rest => (q.enqueue name operation).enqueueAll rest

/-- Operations that have not begun will not begin. -/
def dispose (q : Queue α) : Queue α :=
  { q with disposed := true }

def unlock (q : Queue α) (gate : String) : Queue α :=
  { q with permits := gate :: q.permits }

/-- What an operation does as soon as it begins: it is done with an outcome, or it waits. -/
def begin (q : Queue α) (job : Job α) : Queue α :=
  let done (q : Queue α) (outcome : Outcome α) : Queue α := q.resolve job.ticket outcome
  let wait (q : Queue α) (w : Wait) : Queue α := { q with running := some ⟨job, w⟩ }
  match job.operation with
  | .action => done (q.note "run" job.name) (.ok .nothing)
  | .value a => done (q.note "run" job.name) (.ok (.value a))
  | .panic => done (q.note "run" job.name) (.error .panicked)
  | .dispose => done (q.note "run" job.name).dispose (.ok .nothing)
  | .unlock gate => done ((q.note "run" job.name).unlock gate) (.ok .nothing)
  | .nest inner => done ((q.note "run" job.name).enqueueAll inner) (.ok .nothing)
  | .panicAfter ms | .sleep ms _ => wait (q.note "start" job.name) (.time (q.now + ms))
  | .pass gate => wait (q.note "start" job.name) (.permit gate)
  | .untilDisposed _ => wait (q.note "start" job.name) .disposal
  | .nestAwait ms =>
    wait ((q.note "start" job.name).push ⟨none, job.name, .idle⟩) (.time (q.now + ms))
  | .idle | .cancelled => done q (.ok .nothing)

/-- What an operation does once its wait is over. One that waited for another operation of its own
queue always waits in vain, as that one is only taken after it. -/
def finish (q : Queue α) (job : Job α) : Queue α :=
  let q := { q with running := none }
  match job.operation with
  | .panicAfter _ => q.resolve job.ticket (.error .panicked)
  | .nestAwait _ => (q.note "timeout" job.name).resolve job.ticket (.ok .nothing)
  | .sleep _ a | .untilDisposed a =>
    (q.note "end" job.name).resolve job.ticket (.ok (.value a))
  | .pass gate =>
    ({ q with permits := q.permits.erase gate }.note "end" job.name).resolve job.ticket
      (.ok (.disposal q.disposed))
  | _ => q.resolve job.ticket (.ok .nothing)

def ready (q : Queue α) : Wait → Bool
  | .time due => due ≤ q.now
  | .permit gate => q.permits.contains gate
  | .disposal => q.disposed

/-- Takes the next job. One that comes after the disposal is cancelled and does not begin. -/
def take (q : Queue α) (job : Job α) (rest : List (Job α)) : Queue α :=
  let q := { q with pending := rest }
  if q.disposed then q.resolve job.ticket (.error .cancelled) else q.begin job

def step? (q : Queue α) : Option (Queue α) :=
  match q.running with
  | some r => if q.ready r.wait then some (q.finish r.job) else none
  | none =>
    match q.pending with
    | job :: rest => some (q.take job rest)
    | [] => if q.draining then some { q with draining := false } else none

def weight (q : Queue α) : Nat :=
  let jobs : Nat := q.pending.foldr (fun job total => job.operation.weight + total) 0
  let running : Nat := if q.running.isSome then 1 else 0
  let release : Nat := if q.draining then 1 else 0
  jobs + running + release

def stepMany : Nat → Queue α → Queue α
  | 0, q => q
  | fuel + 1, q =>
    match q.step? with
    | none => q
    | some q' => stepMany fuel q'

def settle (q : Queue α) : Queue α :=
  stepMany q.weight q

def due? (q : Queue α) : Option Nat :=
  match q.running with
  | some ⟨_, .time due⟩ => some due
  | _ => none

/-- Lets time pass up to `target`, stopping at every time that is due. -/
def advanceTo (target : Nat) : Nat → Queue α → Queue α
  | 0, q => { q.settle with now := target }
  | fuel + 1, q =>
    let q := q.settle
    match q.due? with
    | some due =>
      if due ≤ target then advanceTo target fuel { q with now := due } else { q with now := target }
    | none => { q with now := target }

def advance (q : Queue α) (ms : Nat) : Queue α :=
  advanceTo (q.now + ms) q.weight q

end Queue

end Overseer
