import Overseer.Proofs.Lifecycle.Moves
import Overseer.Supervisor

/-!
What each operation of a supervisor comes to, in every state in which it may be performed. Later
proofs rewrite with these equations and open no operation.
-/
namespace Overseer.Supervisor

variable {s : Supervisor}

theorem fire_of_refused {t : Trigger} (refused : Lifecycle.next s.state t s.context = none)
    (onward : Supervisor → Supervisor × List Effect) :
    s.fire t onward = (s, [.warn (.notPermitted s.state t)]) := by
  simp [fire, refused]

theorem fire_of_permitted {t : Trigger} {target : State}
    (permitted : Lifecycle.next s.state t s.context = some target)
    (onward : Supervisor → Supervisor × List Effect) :
    s.fire t onward =
      ((onward { s with state := target }).1,
        .broadcast ⟨s.state, target⟩ :: (onward { s with state := target }).2) := by
  simp [fire, permitted]

theorem permits_start : s.permits .start = !s.state.isLive := by
  rw [permits, Lifecycle.next_start]
  cases s.state.isLive <;> rfl

theorem permits_stop : s.permits .stop = decide (s.state = .running) := by
  rw [permits, Lifecycle.next_stop]
  by_cases running : s.state = .running <;> simp [running]

theorem start_of_isLive (live : s.state.isLive = true) (launched : Except SystemError UInt32) :
    s.start launched = (s, [.warn (.notPermitted s.state .start)]) :=
  fire_of_refused (by rw [Lifecycle.next_start, if_pos live]) _

theorem start_ok (idle : s.state.isLive = false) (pid : UInt32) :
    s.start (.ok pid) =
      ({ s with
          state := .running, killed := false, startError := none
          handle := some { pid }, info := some { id := pid } },
        [.broadcast ⟨s.state, .running⟩]) := by
  have permitted : Lifecycle.next s.state .start s.context = some .running := by
    simp [Lifecycle.next_start, idle]
  rw [start, fire_of_permitted permitted]
  rfl

/-- A launch that fails passes through the state of a process that runs. -/
theorem start_error (idle : s.state.isLive = false) (cause : SystemError) :
    s.start (.error cause) =
      ({ s with
          state := .startFailed, killed := false, handle := none, info := none
          startError := some ⟨s.settings.program, cause⟩ },
        [.broadcast ⟨s.state, .running⟩, .warn .startFailed,
          .broadcast ⟨.running, .startFailed⟩]) := by
  have permitted : Lifecycle.next s.state .start s.context = some .running := by
    simp [Lifecycle.next_start, idle]
  rw [start, fire_of_permitted permitted]
  rfl

theorem limit?_eq_none_iff (timeout : Option Duration) :
    limit? timeout = none ↔ timeout = none ∨ timeout = some .zero := by
  cases timeout <;> simp [limit?]

theorem stop_of_refused (refused : s.state ≠ .running) (settled : s.cooperativeStop = none)
    (timeout : Option Duration) :
    s.stop timeout = (s, [.warn (.notPermitted s.state .stop)]) := by
  have noRow : Lifecycle.next s.state .stop s.context = none := by
    simp [Lifecycle.next_stop, refused]
  rw [stop, fire_of_refused noRow]
  obtain ⟨settings, state, handle, info, killed, startError, cooperativeStop⟩ := s
  subst settled
  rfl

theorem stop_at_once (running : s.state = .running) {h : Handle} (handle : s.handle = some h)
    (settled : s.cooperativeStop = none) {timeout : Option Duration}
    (none : limit? timeout = none) :
    s.stop timeout =
      ({ s with state := .stopping, killed := true },
        .broadcast ⟨.running, .stopping⟩ :: .kill h.pid (!h.collected) ::
          if h.collected then [.warn .alreadyEnded] else []) := by
  have permitted : Lifecycle.next s.state .stop s.context = some .stopping := by
    simp [Lifecycle.next_stop, running]
  rw [stop, fire_of_permitted permitted]
  simp [beginStop, handle, none, kill, handOver, settled, running]

theorem stop_cooperatively (running : s.state = .running) {h : Handle} (handle : s.handle = some h)
    (settled : s.cooperativeStop = none) {timeout : Option Duration} {limit : Duration}
    (some : limit? timeout = some limit) :
    s.stop timeout =
      ({ s with state := .stopping },
        [.broadcast ⟨.running, .stopping⟩, .begin ⟨h.pid, limit⟩, .await ⟨h.pid, limit⟩]) := by
  have permitted : Lifecycle.next s.state .stop s.context = Option.some .stopping := by
    simp [Lifecycle.next_stop, running]
  rw [stop, fire_of_permitted permitted]
  simp [beginStop, handle, some, handOver, settled, running]

def exitState (s : Supervisor) (code : Int32) : State :=
  if s.state = .running then .exitedUnexpectedly else Lifecycle.verdict ⟨s.killed, some code⟩

theorem exitState_isExited (code : Int32) : (s.exitState code).isExited = true := by
  unfold exitState
  split
  · rfl
  · exact Lifecycle.isExited_verdict _

theorem next_exit (live : s.state.isLive = true) (code : Int32) :
    Lifecycle.next s.state .processExit ⟨s.killed, some code⟩ = some (s.exitState code) := by
  rcases (State.isLive_iff _).mp live with state | state
  · simp [Lifecycle.next_processExit, exitState, state]
  · simp [Lifecycle.next_processExit, exitState, state]

theorem reportExit_of_isLive (live : s.state.isLive = true) {info : ProcessInfo}
    (known : s.info = some info) (code : Int32) :
    s.reportExit info.id code =
      ({ s with state := s.exitState code, info := some { info with exitCode := some code } },
        [.broadcast ⟨s.state, s.exitState code⟩]) := by
  have permitted : Lifecycle.next s.state .processExit
      { s with info := some { info with exitCode := some code } }.context =
        some (s.exitState code) := next_exit live code
  simp only [reportExit, known, if_true]
  rw [fire_of_permitted permitted]

theorem escalate_of_match (stopping : s.state = .stopping) {h : Handle}
    (handle : s.handle = some h) :
    s.escalate h.pid =
      ({ s with killed := true },
        .kill h.pid (!h.collected) :: if h.collected then [.warn .alreadyEnded] else []) := by
  simp [escalate, handle, stopping, kill]

theorem escalate_of_mismatch {pid : UInt32}
    (other : ¬(s.state = .stopping ∧ s.handle.map Handle.pid = some pid)) :
    s.escalate pid = (s, []) := by
  unfold escalate
  split
  · rfl
  next h handle =>
    simp only [handle, Option.map_some, Option.some.injEq] at other
    rw [if_neg other]

end Overseer.Supervisor
