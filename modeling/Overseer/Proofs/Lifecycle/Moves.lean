import Overseer.Lifecycle

/-!
The table of the lifecycle read trigger by trigger. These equations are all that later proofs use of
the table.
-/
namespace Overseer

namespace State

@[simp] theorem isLive_running : isLive .running = true := rfl

@[simp] theorem isLive_stopping : isLive .stopping = true := rfl

@[simp] theorem isLive_startFailed : isLive .startFailed = false := rfl

theorem isLive_iff (s : State) : s.isLive = true ↔ s = .running ∨ s = .stopping := by
  simp [isLive]

theorem isExited_of_isLive {s : State} (live : s.isLive = true) : s.isExited = false := by
  cases s <;> first | rfl | contradiction

theorem isLive_of_isExited {s : State} (ended : s.isExited = true) : s.isLive = false := by
  cases s <;> first | rfl | contradiction

end State

namespace Lifecycle

/-- A start is permitted unless a process is there, whatever the guards see. -/
theorem next_start (s : State) (context : Context) :
    next s .start context = if s.isLive then none else some .running := by
  cases s <;> rfl

theorem next_startError (s : State) (context : Context) :
    next s .startError context = if s = .running then some .startFailed else none := by
  cases s <;> rfl

theorem next_stop (s : State) (context : Context) :
    next s .stop context = if s = .running then some .stopping else none := by
  cases s <;> rfl

def verdict (context : Context) : State :=
  if context.killed then .exitedKilled
  else if context.exitCode = some 0 then .exitedSuccessfully
  else .exitedWithError

theorem isExited_verdict (context : Context) : (verdict context).isExited = true := by
  unfold verdict
  repeat' split
  all_goals rfl

theorem next_processExit (s : State) (context : Context) :
    next s .processExit context =
      if s = .running ∧ context.exitCode.isSome then some .exitedUnexpectedly
      else if s = .stopping then some (verdict context)
      else none := by
  obtain ⟨killed, code⟩ := context
  cases s <;> cases killed <;> cases code <;> simp [next, table, Row.permits, Guard.holds, verdict]
  split <;> simp_all

/-- All that the table lets happen. -/
inductive Passage : State → Trigger → Context → State → Prop where
  | start {s : State} (free : s.isLive = false) (context : Context) :
      Passage s .start context .running
  | startError (context : Context) : Passage .running .startError context .startFailed
  | stop (context : Context) : Passage .running .stop context .stopping
  | unasked {context : Context} (code : context.exitCode.isSome) :
      Passage .running .processExit context .exitedUnexpectedly
  | asked (context : Context) : Passage .stopping .processExit context (verdict context)

theorem next_eq_some_iff {s target : State} {t : Trigger} {context : Context} :
    next s t context = some target ↔ Passage s t context target := by
  constructor
  · intro moves
    cases t with
    | start =>
      obtain ⟨free, rfl⟩ : s.isLive = false ∧ .running = target := by
        simpa [next_start] using moves
      exact .start free context
    | startError =>
      obtain ⟨rfl, rfl⟩ : s = .running ∧ .startFailed = target := by
        simpa [next_startError] using moves
      exact .startError context
    | stop =>
      obtain ⟨rfl, rfl⟩ : s = .running ∧ .stopping = target := by simpa [next_stop] using moves
      exact .stop context
    | processExit =>
      rw [next_processExit] at moves
      split at moves
      next unasked =>
        obtain ⟨rfl, code⟩ := unasked
        cases moves
        exact .unasked code
      · split at moves
        next stopping =>
          cases moves
          exact stopping ▸ .asked context
        · cases moves
  · rintro (free | _ | _ | code | _)
    · simp [next_start, free]
    · simp [next_startError]
    · simp [next_stop]
    · simp [next_processExit, code]
    · simp [next_processExit]

theorem advance_of_refused {s : State} {e : Event}
    (refused : next s e.trigger e.context = none) : advance s e = s := by
  rw [advance, refused, Option.getD_none]

theorem advance_of_next {s target : State} {e : Event}
    (moves : next s e.trigger e.context = some target) : advance s e = target := by
  rw [advance, moves, Option.getD_some]

end Lifecycle

end Overseer
