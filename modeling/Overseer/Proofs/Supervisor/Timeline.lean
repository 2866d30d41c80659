import Overseer.Proofs.Supervisor.Pursuit

/-!
A stop that leaves its process time, on a timeline. The request to exit is answered at one time, the
process ends by itself at another, and the stop gives up when the time that it leaves has run out:
once if nobody answers, and again from the answer on. Time passes only as far as the next thing that
is due.
-/
namespace Overseer.Supervisor

/-- A stop is applied to a process at `start`, and leaves it a limit. -/
structure Timeline where
  pid : UInt32
  start : Nat
  limit : Duration
  /-- How long it takes until the request to exit is answered, be it yes or no, if it ever is. -/
  answer : Option Nat
  /-- How long it takes until the exit of the process is applied, if it ends by itself. -/
  exit : Option Nat
  code : Int32

namespace Timeline

def patience (l : Timeline) : Nat :=
  match l.answer with
  | none => l.limit.toMillis
  | some d => if l.limit.toMillis < d then l.limit.toMillis else d + l.limit.toMillis

theorem limit_le_patience (l : Timeline) : l.limit.toMillis ≤ l.patience := by
  unfold patience
  split
  · exact Nat.le_refl _
  · split <;> omega

/-- A stop waits for nothing that comes before this time. -/
def spares (l : Timeline) (s : Stopping) (time : Nat) : Bool :=
  s.deadline?.all (fun deadline => time ≤ deadline) &&
    (s.phase != .asking || l.answer.all fun d => time ≤ l.start + d)

/-- Time does not pass over what is due: the answer and the end of the patience, an escalation that is
in the queue, and the exit of the process. The answer and the exit come when they are due, and whoever
looks sees the state as it is. -/
def allows (l : Timeline) (t : Traffic) : Traffic.Event → Bool
  | .elapse ms =>
    (t.stopsAfter l.pid).all (fun s => l.spares s (t.now + ms)) && t.escalationsDue l.pid = 0 &&
      (t.supervisor.info != some ⟨l.pid, none⟩ || t.supervisor.killed ||
        l.exit.all fun e => t.now + ms ≤ l.start + e)
  | .tell index .answered =>
    t.stops[index]?.all fun s =>
      !s.isAfter l.pid || s.phase != .asking || l.answer.any fun d => t.now = l.start + d
  | .tell _ (.seen state) => state = t.supervisor.state
  | .complete =>
    match t.executing with
    | some (.exited pid code) =>
      pid != l.pid || t.supervisor.killed ||
        (code = l.code && l.exit.any fun e => t.now = l.start + e)
    | _ => true
  | _ => true

def timely (l : Timeline) (t : Traffic) : List Traffic.Event → Bool
  | [] => true
  | e :: events => l.allows t e && l.timely (t.advance e) events

variable {l : Timeline} {t : Traffic}

theorem allows_elapse {ms : Nat} (allowed : l.allows t (.elapse ms) = true) :
    (∀ s ∈ t.stopsAfter l.pid, l.spares s (t.now + ms) = true) ∧ t.escalationsDue l.pid = 0 ∧
      (t.supervisor.info = some ⟨l.pid, none⟩ → t.supervisor.killed = false →
        ∀ e, l.exit = some e → t.now + ms ≤ l.start + e) := by
  simp only [allows, Bool.and_eq_true, List.all_eq_true, decide_eq_true_eq] at allowed
  obtain ⟨⟨spares, due⟩, exit⟩ := allowed
  refine ⟨spares, due, fun info unkilled e known => ?_⟩
  simpa [info, unkilled, known] using exit

theorem allows_answered {index : Nat} (allowed : l.allows t (.tell index .answered) = true)
    {s : Stopping} (found : t.stops[index]? = some s) (ours : s.isAfter l.pid = true)
    (asking : s.phase = .asking) : ∃ d, l.answer = some d ∧ t.now = l.start + d := by
  simpa [allows, found, ours, asking, Option.any_eq_true] using allowed

theorem allows_complete {code : Int32} (allowed : l.allows t .complete = true)
    (busy : t.executing = some (.exited l.pid code)) (unkilled : t.supervisor.killed = false) :
    code = l.code ∧ ∃ e, l.exit = some e ∧ t.now = l.start + e := by
  simpa [allows, busy, unkilled, Option.any_eq_true] using allowed

end Timeline

end Overseer.Supervisor
