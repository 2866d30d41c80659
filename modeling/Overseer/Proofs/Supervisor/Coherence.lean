import Overseer.Proofs.Supervisor.Run

/-!
What a supervisor knows fits the state it is in, between any two operations of any run.
-/
namespace Overseer.Supervisor

/-- What each state says of the rest. A handle is there from a launch on until the next one. -/
structure Coherent (s : Supervisor) : Prop where
  notStarted : s.state = .notStarted →
    s.handle = none ∧ s.info = none ∧ s.startError = none ∧ s.killed = false
  live : s.state.isLive = true →
    ∃ h, s.handle = some h ∧ s.info = some ⟨h.pid, none⟩ ∧ s.startError = none
  running : s.state = .running → s.killed = false
  startFailed : s.state = .startFailed →
    s.handle = none ∧ s.info = none ∧ s.killed = false ∧
      ∃ cause, s.startError = some ⟨s.settings.program, cause⟩
  exited : s.state.isExited = true →
    ∃ pid code, s.info = some ⟨pid, some code⟩ ∧
      (s.state = .exitedKilled ↔ s.killed = true) ∧
      (s.state = .exitedSuccessfully → code = 0) ∧ (s.state = .exitedWithError → code ≠ 0)
  failed : s.startError.isSome = true ↔ s.state = .startFailed
  settled : s.cooperativeStop = none

variable {s : Supervisor}

theorem coherent_fresh (settings : Settings) : Coherent { settings } where
  notStarted _ := ⟨rfl, rfl, rfl, rfl⟩
  live h := by contradiction
  running h := by contradiction
  startFailed h := by contradiction
  exited h := by contradiction
  failed := by simp
  settled := rfl

theorem Coherent.start (coherent : Coherent s) (launched : Except SystemError UInt32) :
    Coherent (s.start launched).1 := by
  cases live : s.state.isLive with
  | true =>
    rw [start_of_isLive live]
    exact coherent
  | false =>
    cases launched with
    | ok pid =>
      rw [start_ok live]
      constructor <;> simp [State.isExited, coherent.settled]
    | error cause =>
      rw [start_error live]
      constructor <;> simp [State.isExited, coherent.settled]

/-- A stop that is applied finds a process, which it kills if it has no time to cooperate. All else it
leaves as it is. -/
theorem Coherent.stop_fst (coherent : Coherent s) (timeout : Option Duration) :
    (s.stop timeout).1 =
      if s.state = .running then
        { s with state := .stopping, killed := s.killed || (limit? timeout).isNone }
      else s := by
  by_cases running : s.state = .running
  · obtain ⟨h, handle, _, _⟩ := coherent.live (by simp [running])
    cases limit : limit? timeout with
    | none =>
      rw [stop_at_once running handle coherent.settled limit, if_pos running]
      simp
    | some d =>
      rw [stop_cooperatively running handle coherent.settled limit, if_pos running]
      simp
  · rw [stop_of_refused running coherent.settled, if_neg running]

theorem Coherent.stop (coherent : Coherent s) (timeout : Option Duration) :
    Coherent (s.stop timeout).1 := by
  rw [coherent.stop_fst]
  split
  next running =>
    obtain ⟨h, handle, info, startError⟩ := coherent.live (by simp [running])
    constructor <;> simp [State.isExited, handle, info, startError, coherent.settled]
  next => exact coherent

/-- The exited state tells whether the process was killed, and its exit code if it was not. -/
theorem exitState_tells (alive : s.state = .running → s.killed = false) (code : Int32) :
    (s.exitState code = .exitedKilled ↔ s.killed = true) ∧
      (s.exitState code = .exitedSuccessfully → code = 0) ∧
      (s.exitState code = .exitedWithError → code ≠ 0) := by
  by_cases running : s.state = .running
  · simp [exitState, running, alive running]
  · cases killed : s.killed with
    | true => simp [exitState, running, Lifecycle.verdict, killed]
    | false =>
      by_cases clean : code = 0 <;>
        simp [exitState, running, Lifecycle.verdict, killed, clean]

theorem Coherent.reportExit (coherent : Coherent s) (live : s.state.isLive = true)
    {info : ProcessInfo} (known : s.info = some info) (code : Int32) :
    Coherent (s.reportExit info.id code).1 := by
  obtain ⟨h, handle, _, startError⟩ := coherent.live live
  -- All fields but the one on exits speak of states that an exit never leads to.
  have ended : (s.exitState code).isExited = true := exitState_isExited code
  have apart : ∀ t : State, t.isExited = false → s.exitState code ≠ t := by
    intro t notExited same
    rw [same, notExited] at ended
    contradiction
  rw [reportExit_of_isLive live known]
  exact {
    notStarted := fun state => absurd state (apart _ rfl)
    live := fun alive => by
      rw [State.isExited_of_isLive alive] at ended
      contradiction
    running := fun state => absurd state (apart _ rfl)
    startFailed := fun state => absurd state (apart _ rfl)
    exited := fun _ => ⟨info.id, code, rfl, exitState_tells coherent.running code⟩
    failed := by simp [startError, apart .startFailed rfl]
    settled := coherent.settled
  }

/-- The mark of a kill is the only thing that an escalation may change, and only during a stop of the
process launched last. -/
theorem Coherent.escalate_fst (coherent : Coherent s) (pid : UInt32) :
    (s.escalate pid).1 =
      if s.state = .stopping ∧ s.info.map ProcessInfo.id = some pid then { s with killed := true }
      else s := by
  have same : s.state = .stopping → s.handle.map Handle.pid = s.info.map ProcessInfo.id := by
    intro stopping
    obtain ⟨h, handle, info, _⟩ := coherent.live (by simp [stopping])
    simp [handle, info]
  split
  next hit =>
    obtain ⟨stopping, known⟩ := hit
    obtain ⟨h, handle, matching⟩ := Option.map_eq_some_iff.mp ((same stopping).trans known)
    rw [← matching, escalate_of_match stopping handle]
  next miss =>
    rw [escalate_of_mismatch]
    rintro ⟨stopping, matching⟩
    exact miss ⟨stopping, (same stopping).symm.trans matching⟩

theorem Coherent.escalate (coherent : Coherent s) (pid : UInt32) :
    Coherent (s.escalate pid).1 := by
  rw [coherent.escalate_fst]
  split
  next hit =>
    obtain ⟨h, handle, info, startError⟩ := coherent.live (by simp [hit.1])
    constructor <;> simp [hit.1, handle, info, startError, coherent.settled, State.isExited]
  next => exact coherent

theorem Coherent.collect (coherent : Coherent s) (pid : UInt32) : Coherent (s.collect pid) where
  notStarted state := by simpa [Supervisor.collect] using coherent.notStarted state
  live alive := by
    obtain ⟨h, handle, info, startError⟩ := coherent.live alive
    refine ⟨if h.pid = pid then { h with collected := true } else h, ?_, ?_, startError⟩
    · simp [Supervisor.collect, handle]
    · rw [Supervisor.collect, info]
      split <;> rfl
  running := coherent.running
  startFailed state := by simpa [Supervisor.collect] using coherent.startFailed state
  exited := coherent.exited
  failed := coherent.failed
  settled := coherent.settled

def awaited (s : Supervisor) : List UInt32 :=
  if s.state.isLive then s.info.toList.map ProcessInfo.id else []

/-- Exits are outstanding of the present process only, so that each report finds its process. -/
structure Run.Sound (r : Run) : Prop where
  coherent : Coherent r.supervisor
  unreported : r.unreported = r.supervisor.awaited

theorem Run.sound_fresh (settings : Settings) : (Run.fresh settings).Sound :=
  ⟨coherent_fresh settings, rfl⟩

theorem Run.Sound.found {r : Run} (sound : r.Sound) {pid : UInt32} (member : pid ∈ r.unreported) :
    r.supervisor.state.isLive = true ∧ r.supervisor.info = some ⟨pid, none⟩ ∧
      r.unreported = [pid] := by
  have outstanding := sound.unreported
  unfold awaited at outstanding
  split at outstanding
  next live =>
    obtain ⟨h, _, info, _⟩ := sound.coherent.live live
    simp only [info, Option.toList_some, List.map_cons, List.map_nil] at outstanding
    rw [outstanding, List.mem_singleton] at member
    subst member
    exact ⟨live, info, outstanding⟩
  next => simp [outstanding] at member

theorem awaited_congr {t : Supervisor} (live : t.state.isLive = s.state.isLive)
    (info : t.info = s.info) : t.awaited = s.awaited := by
  rw [awaited, awaited, live, info]

theorem awaited_of_not_isLive (idle : s.state.isLive = false) : s.awaited = [] := by
  simp [awaited, idle]

/-- A stop neither brings a process nor ends one. -/
theorem awaited_stop (coherent : Coherent s) (timeout : Option Duration) :
    (s.stop timeout).1.awaited = s.awaited := by
  rw [coherent.stop_fst]
  split
  next running => exact awaited_congr (by simp [running]) rfl
  next => rfl

theorem awaited_escalate (coherent : Coherent s) (pid : UInt32) :
    (s.escalate pid).1.awaited = s.awaited := by
  rw [coherent.escalate_fst]
  split
  next => exact awaited_congr rfl rfl
  next => rfl

theorem Run.Sound.start {r : Run} (sound : r.Sound) (launched : Except SystemError UInt32) :
    (r.advance (.perform (.start launched))).Sound := by
  refine ⟨sound.coherent.start launched, ?_⟩
  simp only [Run.advance, perform]
  cases live : r.supervisor.state.isLive with
  | true =>
    rw [start_of_isLive live]
    cases launched <;> simp [Run.unreportedAfter, permits_start, live, sound.unreported]
  | false =>
    -- Nothing is outstanding, since every exit is reported before the next launch.
    have none : r.unreported = [] := sound.unreported.trans (awaited_of_not_isLive live)
    cases launched with
    | ok pid =>
      rw [start_ok live]
      simp [Run.unreportedAfter, permits_start, live, none, awaited]
    | error cause =>
      rw [start_error live]
      simp [Run.unreportedAfter, none, awaited]

theorem Run.Sound.reportExit {r : Run} (sound : r.Sound) {pid : UInt32}
    (member : pid ∈ r.unreported) (code : Int32) :
    (r.advance (.perform (.exited pid code))).Sound := by
  obtain ⟨live, info, only⟩ := sound.found member
  refine ⟨sound.coherent.reportExit live info code, ?_⟩
  have ended : (r.supervisor.exitState code).isLive = false := by
    cases alive : (r.supervisor.exitState code).isLive with
    | false => rfl
    | true =>
      have contrary := State.isExited_of_isLive alive
      rw [exitState_isExited] at contrary
      contradiction
  have report := reportExit_of_isLive live info code
  simp only [Run.advance, perform, Run.unreportedAfter, only, List.erase_cons_head]
  rw [report, awaited_of_not_isLive ended]

/-- Every step of a run leaves the supervisor coherent, and outstanding what it awaits. -/
theorem Run.Sound.advance {r : Run} (sound : r.Sound) (e : Event) (admitted : r.admits e = true) :
    (r.advance e).Sound := by
  cases e with
  | perform op =>
    cases op with
    | start launched => exact sound.start launched
    | stop timeout =>
      exact ⟨sound.coherent.stop timeout,
        sound.unreported.trans (awaited_stop sound.coherent timeout).symm⟩
    | exited pid code =>
      exact sound.reportExit (by simpa [Run.admits] using admitted) code
    | escalate pid =>
      exact ⟨sound.coherent.escalate pid,
        sound.unreported.trans (awaited_escalate sound.coherent pid).symm⟩
  | collect pid =>
    exact ⟨sound.coherent.collect pid, sound.unreported.trans (awaited_congr rfl rfl).symm⟩

theorem Run.sound_execute (settings : Settings) {events : List Event}
    (admitted : (Run.fresh settings).admitsAll events = true) :
    ((Run.fresh settings).execute events).Sound :=
  Run.execute_induction (Run.sound_fresh settings) (fun _ e sound => sound.advance e) events
    admitted

theorem settings_perform (op : Operation) : (s.perform op).1.settings = s.settings := by
  cases op with
  | start launched =>
    cases launched <;> simp only [perform, start, launch, failStart, fire] <;> repeat' split
    all_goals rfl
  | stop timeout =>
    simp only [perform, stop, beginStop, handOver, kill, fire]
    repeat' split
    all_goals rfl
  | exited pid code =>
    simp only [perform, reportExit, fire]
    repeat' split
    all_goals rfl
  | escalate pid =>
    simp only [perform, escalate, kill]
    repeat' split
    all_goals rfl

theorem Run.settings_advance (r : Run) (e : Event) :
    (r.advance e).supervisor.settings = r.supervisor.settings := by
  cases e with
  | perform op => exact settings_perform op
  | collect pid => rfl

theorem Run.settings_execute (r : Run) (events : List Event) :
    (r.execute events).supervisor.settings = r.supervisor.settings := by
  induction events generalizing r with
  | nil => rfl
  | cons e events ih => exact (ih (r.advance e)).trans (r.settings_advance e)

/-- Between any two operations of any run the supervisor is coherent, and its settings are those
that it was made with. -/
theorem execute_coherent (settings : Settings) (events : List Event)
    (admitted : (Run.fresh settings).admitsAll events = true) :
    Coherent ((Run.fresh settings).execute events).supervisor ∧
      ((Run.fresh settings).execute events).supervisor.settings = settings := by
  refine ⟨(Run.sound_execute settings admitted).coherent, ?_⟩
  refine Run.execute_induction (motive := fun r => r.supervisor.settings = settings) rfl ?_ events
    admitted
  intro r e same _
  rw [r.settings_advance e, same]

/-- A process that is killed although it exited by itself, a launch that fails, and a process that
ends while it runs. -/
theorem execute_coherent_restarts :
    let settings : Settings := ⟨"", "/bin/server", "", .empty, false⟩
    let events : List Event := [
      .perform (.start (.ok 7)), .perform (.stop (some (.ofSeconds 5 (by decide)))), .collect 7,
      .perform (.escalate 7), .perform (.exited 7 0), .perform (.start (.error (.errno ⟨2⟩))),
      .perform (.escalate 7), .perform (.start (.ok 7)), .perform (.exited 7 3)]
    (Run.fresh settings).admitsAll events = true ∧
      Coherent ((Run.fresh settings).execute events).supervisor ∧
      ((Run.fresh settings).execute events).supervisor.settings = settings :=
  ⟨by decide, execute_coherent _ _ (by decide)⟩

end Overseer.Supervisor
