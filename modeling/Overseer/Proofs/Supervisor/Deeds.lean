import Overseer.Proofs.Supervisor.Coherence

/-!
Operations as they were performed. `Course` says once all that an operation may do to a coherent
supervisor; what a history of operations keeps is read off it case by case.
-/
namespace Overseer.Supervisor

def Operation.reported? : Operation → Option UInt32
  | .exited pid _ => some pid
  | _ => none

def Operation.escalated? : Operation → Option UInt32
  | .escalate pid => some pid
  | _ => none

def launches? (s : Supervisor) : Operation → Option UInt32
  | .start (.ok pid) => if s.permits .start then some pid else none
  | _ => none

def stops? (s : Supervisor) : Operation → Option UInt32
  | .stop _ => if s.permits .stop then s.info.map ProcessInfo.id else none
  | _ => none

variable {s : Supervisor} {op : Operation}

theorem launches?_eq_some_iff {pid : UInt32} :
    s.launches? op = some pid ↔ op = .start (.ok pid) ∧ s.state.isLive = false := by
  cases op with
  | start launched => cases launched <;> simp [launches?, permits_start, and_comm]
  | _ => simp [launches?]

theorem exitState_isLive (code : Int32) : (s.exitState code).isLive = false :=
  State.isLive_of_isExited (exitState_isExited code)

/-- What an operation does to a supervisor: where it leads, the changes that are broadcast, the
processes whose killing is asked for, and the cooperative stops that begin. -/
inductive Course (s : Supervisor) :
    Operation → Supervisor → List Change → List UInt32 → List CooperativeStop → Prop where
  | startRefused (live : s.state.isLive = true) (launched : Except SystemError UInt32) :
      Course s (.start launched) s [] [] []
  | launch (idle : s.state.isLive = false) (pid : UInt32) :
      Course s (.start (.ok pid))
        { s with
          state := .running, killed := false, startError := none
          handle := some { pid }, info := some { id := pid } }
        [⟨s.state, .running⟩] [] []
  | launchFailed (idle : s.state.isLive = false) (cause : SystemError) :
      Course s (.start (.error cause))
        { s with
          state := .startFailed, killed := false, handle := none, info := none
          startError := some ⟨s.settings.program, cause⟩ }
        [⟨s.state, .running⟩, ⟨.running, .startFailed⟩] [] []
  | stopRefused (idle : s.state ≠ .running) (timeout : Option Duration) :
      Course s (.stop timeout) s [] [] []
  | kill (running : s.state = .running) (pid : UInt32) (info : s.info = some ⟨pid, none⟩)
      (timeout : Option Duration) (atOnce : limit? timeout = none) :
      Course s (.stop timeout) { s with state := .stopping, killed := true }
        [⟨.running, .stopping⟩] [pid] []
  | ask (running : s.state = .running) (pid : UInt32) (info : s.info = some ⟨pid, none⟩)
      (timeout : Option Duration) (limit : Duration) (some : limit? timeout = some limit) :
      Course s (.stop timeout) { s with state := .stopping }
        [⟨.running, .stopping⟩] [] [⟨pid, limit⟩]
  | exit (live : s.state.isLive = true) (pid : UInt32) (info : s.info = some ⟨pid, none⟩)
      (code : Int32) :
      Course s (.exited pid code)
        { s with state := s.exitState code, info := some ⟨pid, some code⟩ }
        [⟨s.state, s.exitState code⟩] [] []
  | escalate (stopping : s.state = .stopping) (pid : UInt32) (info : s.info = some ⟨pid, none⟩) :
      Course s (.escalate pid) { s with killed := true } [] [pid] []
  | escalateInVain (pid : UInt32)
      (other : ¬(s.state = .stopping ∧ s.info.map ProcessInfo.id = some pid)) :
      Course s (.escalate pid) s [] [] []

def Finds (s : Supervisor) (op : Operation) : Prop :=
  ∀ pid code, op = .exited pid code → s.state.isLive = true ∧ s.info = some ⟨pid, none⟩

/-- An escalation finds the process that it is after and its stop, or it does nothing. -/
theorem Coherent.escalate_stale (coherent : Coherent s) {pid : UInt32}
    (other : ¬(s.state = .stopping ∧ s.info.map ProcessInfo.id = some pid)) :
    s.escalate pid = (s, []) := by
  refine escalate_of_mismatch ?_
  rintro ⟨stopping, matching⟩
  obtain ⟨h, handle, info, _⟩ := coherent.live (by simp [stopping])
  exact other ⟨stopping, by simpa [handle, info] using matching⟩

theorem Coherent.course (coherent : Coherent s) (finds : s.Finds op) :
    Course s op (s.perform op).1 (changesOf (s.perform op).2) (killsOf (s.perform op).2)
      (begunOf (s.perform op).2) := by
  cases op with
  | start launched =>
    cases live : s.state.isLive with
    | true =>
      simp only [perform, start_of_isLive live]
      exact .startRefused live launched
    | false =>
      cases launched with
      | ok pid =>
        simp only [perform, start_ok live]
        exact .launch live pid
      | error cause =>
        simp only [perform, start_error live]
        exact .launchFailed live cause
  | stop timeout =>
    by_cases running : s.state = .running
    · obtain ⟨h, handle, info, _⟩ := coherent.live (by simp [running])
      cases limit : limit? timeout with
      | none =>
        simp only [perform, stop_at_once running handle coherent.settled limit]
        cases h.collected <;> exact .kill running h.pid info timeout limit
      | some d =>
        simp only [perform, stop_cooperatively running handle coherent.settled limit]
        exact .ask running h.pid info timeout d limit
    · simp only [perform, stop_of_refused running coherent.settled]
      exact .stopRefused running timeout
  | exited pid code =>
    obtain ⟨live, info⟩ := finds pid code rfl
    simp only [perform, reportExit_of_isLive live info]
    exact .exit live pid info code
  | escalate pid =>
    by_cases hit : s.state = .stopping ∧ s.info.map ProcessInfo.id = some pid
    · obtain ⟨stopping, matching⟩ := hit
      obtain ⟨h, handle, info, _⟩ := coherent.live (by simp [stopping])
      obtain rfl : h.pid = pid := by simpa [info] using matching
      simp only [perform, escalate_of_match stopping handle]
      cases h.collected <;> exact .escalate stopping h.pid info
    · simp only [perform, coherent.escalate_stale hit]
      exact .escalateInVain pid hit

/-- An operation that was performed, and the supervisor that it found. -/
structure Deed where
  before : Supervisor
  operation : Operation

namespace Deed

variable (d : Deed)

def after : Supervisor := (d.before.perform d.operation).1

def changes : List Change := changesOf (d.before.perform d.operation).2

def kills : List UInt32 := killsOf (d.before.perform d.operation).2

def begun : List CooperativeStop := begunOf (d.before.perform d.operation).2

def launched? : Option UInt32 := d.before.launches? d.operation

def stopped? : Option UInt32 := d.before.stops? d.operation

/-- The operation found a supervisor that makes sense of it. -/
structure Sound : Prop where
  coherent : Coherent d.before
  finds : d.before.Finds d.operation

variable {d}

theorem Sound.course (sound : d.Sound) :
    Course d.before d.operation d.after d.changes d.kills d.begun :=
  sound.coherent.course sound.finds

end Deed

end Overseer.Supervisor
