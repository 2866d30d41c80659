import Mathlib.Logic.Relation
import Overseer.Proofs.Supervisor.Reckoning

/-!
A supervisor that is started once. Its process is being launched, is there, or is gone, and it is
gone when the report of its exit was executed. From then on its exit code is on record.
-/
namespace Overseer.Supervisor

/-- Only the report of its exit ends a process, and only a start gives another one. -/
theorem Course.lasts {s s' : Supervisor} {op : Operation} {changes : List Change}
    {kills : List UInt32} {begun : List CooperativeStop}
    (course : Course s op s' changes kills begun) (noStart : ∀ launched, op ≠ .start launched) :
    (s'.state.isLive = s.state.isLive ∧ s'.state.isExited = s.state.isExited ∧ s'.info = s.info) ∨
      ∃ pid code, op = .exited pid code ∧ s.info = some ⟨pid, none⟩ ∧ s.state.isLive = true ∧
        s'.state.isExited = true ∧ s'.info = some ⟨pid, some code⟩ := by
  cases course with
  | startRefused _ launched | launchFailed _ launched | launch _ launched =>
    exact absurd rfl (noStart _)
  | stopRefused | escalate | escalateInVain => exact .inl ⟨rfl, rfl, rfl⟩
  | kill running | ask running => exact .inl ⟨by simp [running], by rw [running]; rfl, rfl⟩
  | exit live pid info code => exact .inr ⟨pid, code, rfl, info, live, exitState_isExited code, rfl⟩

namespace Traffic

def Event.elapsed : Event → Nat
  | .elapse ms => ms
  | _ => 0

theorem now_advance (t : Traffic) (e : Event) : (t.advance e).now = t.now + e.elapsed := by
  cases e with
  | tell index e =>
    simp only [advance, tell]
    split <;> rfl
  | take launched =>
    simp only [advance, take]
    split <;> rfl
  | complete =>
    simp only [advance, complete]
    split <;> rfl
  | start | stop | collect | report | elapse => rfl

theorem settings_advance (t : Traffic) (e : Event) :
    (t.advance e).supervisor.settings = t.supervisor.settings := by
  cases e with
  | tell index e =>
    simp only [advance, tell]
    split <;> rfl
  | take launched =>
    simp only [advance, take]
    split <;> rfl
  | complete =>
    simp only [advance, complete]
    split
    · rfl
    · exact t.run.settings_advance _
  | start | stop | collect | report | elapse => rfl

/-- Where the process is. It is gone with an exit code that it may have ended with. -/
inductive Lifetime (pid : UInt32) (may : Int32 → Prop) (t : Traffic) : Prop where
  | launching (busy : t.executing = some (.start (.ok pid)))
      (state : t.supervisor.state = .notStarted)
  | there (started : ∀ launched, t.executing ≠ some (.start launched))
      (live : t.supervisor.state.isLive = true) (info : t.supervisor.info = some ⟨pid, none⟩)
  | gone (started : ∀ launched, t.executing ≠ some (.start launched))
      (exited : t.supervisor.state.isExited = true) (code : Int32) (ended : may code)
      (info : t.supervisor.info = some ⟨pid, some code⟩)

/-- Nobody asks for a start any more. The exit is reported as it may have been. -/
structure Once (pid : UInt32) (may : Int32 → Prop) (t : Traffic) : Prop where
  sound : t.Sound
  unasked : .start ∉ t.queue
  reports : ∀ code, t.Reporting pid code → may code
  lifetime : t.Lifetime pid may

variable {pid : UInt32} {may may' : Int32 → Prop} {t : Traffic}

theorem Lifetime.mono (lifetime : t.Lifetime pid may) (more : ∀ code, may code → may' code) :
    t.Lifetime pid may' := by
  cases lifetime with
  | launching busy state => exact .launching busy state
  | there started live info => exact .there started live info
  | gone started exited code ended info => exact .gone started exited code (more code ended) info

theorem Once.mono (once : t.Once pid may) (more : ∀ code, may code → may' code) :
    t.Once pid may' where
  sound := once.sound
  unasked := once.unasked
  reports code reporting := more code (once.reports code reporting)
  lifetime := once.lifetime.mono more

def opening (settings : Settings) (pid : UInt32) : Traffic :=
  (fresh settings).execute [.start, .take (.ok pid)]

theorem once_opening (settings : Settings) (pid : UInt32) (may : Int32 → Prop) :
    (opening settings pid).Once pid may where
  sound := sound_execute settings rfl
  unasked := List.not_mem_nil
  reports code := by
    rintro (waits | busy)
    · cases waits
    · cases busy
  lifetime := .launching rfl rfl

theorem unasked_advance {e : Event} (noStart : e ≠ .start) (unasked : .start ∉ t.queue) :
    .start ∉ (t.advance e).queue := by
  cases e with
  | start => exact absurd rfl noStart
  | stop | report => simpa [Traffic.advance, put] using unasked
  | collect | elapse => exact unasked
  | tell index e =>
    simp only [Traffic.advance, Traffic.tell]
    split
    · exact unasked
    · simpa using unasked
  | take launched =>
    cases queue : t.queue with
    | nil => simp [Traffic.advance, take, queue]
    | cons r rest =>
      rw [Traffic.advance, take_eq queue]
      exact fun member => unasked (queue ▸ List.mem_cons_of_mem r member)
  | complete =>
    simp only [Traffic.advance, Traffic.complete]
    split <;> exact unasked

/-- What is done aside does not touch the process. -/
theorem Lifetime.aside {u : Traffic} (lifetime : t.Lifetime pid may) (aside : t.Aside u) :
    u.Lifetime pid may := by
  obtain ⟨state, info, _⟩ := aside.supervisor
  have executing := aside.executing
  cases lifetime with
  | launching busy unstarted => exact .launching (executing.trans busy) (state.trans unstarted)
  | there started live known =>
    exact .there (executing ▸ started) (state ▸ live) (info.trans known)
  | gone started exited code ended known =>
    exact .gone (executing ▸ started) (state ▸ exited) code ended (info.trans known)

theorem Lifetime.take (lifetime : t.Lifetime pid may) (free : t.executing = none) {r : Request}
    {rest : List Request} (queue : t.queue = r :: rest) (unasked : .start ∉ t.queue)
    (launched : Except SystemError UInt32) : (t.take launched).Lifetime pid may := by
  have started (l : Except SystemError UInt32) :
      (t.take launched).executing ≠ some (.start l) := by
    rw [take_eq queue]
    rintro taken
    have taken : r.operation launched = .start l := Option.some.inj taken
    cases r with
    | start => exact unasked (queue ▸ List.mem_cons_self)
    | stop | exited | escalate => cases taken
  have same : (t.take launched).supervisor = t.supervisor := by rw [take_eq queue]
  cases lifetime with
  | launching busy =>
    rw [free] at busy
    cases busy
  | there _ live info => exact .there started (same ▸ live) (same ▸ info)
  | gone _ exited code ended info => exact .gone started (same ▸ exited) code ended (same ▸ info)

theorem Once.complete (once : t.Once pid may) {op : Operation} (busy : t.executing = some op) :
    t.complete.Lifetime pid may := by
  have course := (once.sound.deed busy).course
  have free : ∀ launched, t.complete.executing ≠ some (.start launched) := by
    simp [complete_eq busy]
  have after : t.complete.supervisor = (t.supervisor.perform op).1 := by
    rw [complete_eq busy]
    rfl
  have lasts (started : ∀ launched, t.executing ≠ some (.start launched)) :=
    course.lasts fun launched same => started launched (same ▸ busy)
  cases once.lifetime with
  | launching busy' state =>
    obtain rfl : op = .start (.ok pid) := Option.some.inj (busy.symm.trans busy')
    have idle : t.supervisor.state.isLive = false := by rw [state]; rfl
    refine .there free ?_ ?_ <;> rw [after, perform, start_ok idle]
    rfl
  | there started live info =>
    rcases lasts started with ⟨live', _, info'⟩ | ⟨p, code, rfl, known, _, exited, info'⟩
    · exact .there free (after ▸ live'.trans live) (after ▸ info'.trans info)
    · obtain rfl : p = pid := congrArg ProcessInfo.id (Option.some.inj (known.symm.trans info))
      exact .gone free (after ▸ exited) code (once.reports code (.inr busy)) (after ▸ info')
  | gone started exited code ended info =>
    rcases lasts started with ⟨_, exited', info'⟩ | ⟨_, _, _, known, _⟩
    · exact .gone free (after ▸ exited'.trans exited) code ended (after ▸ info'.trans info)
    · cases known.symm.trans info

/-- Nothing but a start leads out of this, as long as only exits are reported that may have been. -/
theorem Once.advance (once : t.Once pid may) {e : Event} (admitted : t.admits e = true)
    (noStart : e ≠ .start) (reports : ∀ code, e = .report pid code → may code) :
    (t.advance e).Once pid may where
  sound := once.sound.advance e admitted
  unasked := unasked_advance noStart once.unasked
  reports code reporting := by
    rcases reporting_advance admitted reporting with before | report
    · exact once.reports code before
    · exact reports code report
  lifetime := by
    rcases advance_cases admitted with
      aside | ⟨r, rest, launched, rfl, free, queue⟩ | ⟨op, rfl, busy⟩
    · exact once.lifetime.aside aside
    · exact once.lifetime.take free queue once.unasked launched
    · exact once.complete busy

/-- A process that is gone stays so. -/
theorem Once.exited_advance (once : t.Once pid may) {e : Event} (admitted : t.admits e = true)
    (exited : t.supervisor.state.isExited = true) :
    (t.advance e).supervisor.state.isExited = true := by
  have started : ∀ launched, t.executing ≠ some (.start launched) := by
    cases once.lifetime with
    | launching _ state =>
      rw [state] at exited
      cases exited
    | there started | gone started => exact started
  rcases advance_cases admitted with aside | ⟨r, rest, launched, rfl, _, queue⟩ | ⟨op, rfl, busy⟩
  · exact aside.supervisor.1 ▸ exited
  · rw [Traffic.advance, take_eq queue]
    exact exited
  · rw [Traffic.advance, complete_eq busy]
    have course := (once.sound.deed busy).course
    rcases course.lasts fun launched same => started launched (same ▸ busy) with
      ⟨_, same, _⟩ | ⟨_, _, _, _, _, exited', _⟩
    · exact same.trans exited
    · exact exited'

/-- Nothing more happens by itself only if the process is gone. -/
theorem Once.recorded (once : t.Once pid may) (terminal : t.supervisor.state.isTerminal = true) :
    t.supervisor.state.isExited = true ∧
      ∃ code, may code ∧ t.supervisor.info = some ⟨pid, some code⟩ := by
  cases once.lifetime with
  | launching _ state =>
    rw [state] at terminal
    cases terminal
  | there _ live =>
    rcases (State.isLive_iff _).mp live with state | state <;>
      · rw [state] at terminal
        cases terminal
  | gone _ exited code ended info => exact ⟨exited, code, ended, info⟩

inductive Serves (t : Traffic) : Traffic → Prop where
  | take (launched : Except SystemError UInt32) (admitted : t.admits (.take launched) = true) :
      Serves t (t.advance (.take launched))
  | complete (admitted : t.admits .complete = true) : Serves t (t.advance .complete)

theorem launching_eq_nil (started : ∀ launched, t.executing ≠ some (.start launched)) :
    t.launching = [] := by
  rw [launching, Option.toList_eq_nil_iff, Option.bind_eq_none_iff]
  intro op busy
  cases op with
  | start launched => exact absurd busy (started launched)
  | stop | exited | escalate => rfl

theorem Once.outstanding (once : t.Once pid may) : t.outstanding = [] ∨ t.outstanding = [pid] := by
  rw [once.sound.outstanding_eq, once.sound.run.unreported]
  cases once.lifetime with
  | launching busy state =>
    have idle : t.supervisor.state.isLive = false := by rw [state]; rfl
    refine .inr ?_
    rw [awaited_of_not_isLive idle, Traffic.launching, busy, Option.bind_some,
      launches?_eq_some_iff.mpr ⟨rfl, idle⟩]
    rfl
  | there started live info =>
    refine .inr ?_
    rw [launching_eq_nil started, awaited, if_pos live, info]
    rfl
  | gone started exited =>
    have idle : t.supervisor.state.isLive = false := by
      cases live : t.supervisor.state.isLive with
      | false => rfl
      | true => rw [State.isExited_of_isLive live] at exited; cases exited
    exact .inl (by rw [launching_eq_nil started, awaited_of_not_isLive idle, List.append_nil])

/-- No reaper is at work but that of the process. -/
theorem Once.reapers (once : t.Once pid may) : t.reapers = [] ∨ t.reapers = [pid] := by
  have outstanding := once.outstanding
  rw [Traffic.outstanding, List.append_assoc] at outstanding
  rcases outstanding with none | one
  · exact .inl (List.append_eq_nil_iff.mp none).1
  · exact (List.append_eq_singleton_iff.mp one).imp And.left And.left

end Traffic

end Overseer.Supervisor
