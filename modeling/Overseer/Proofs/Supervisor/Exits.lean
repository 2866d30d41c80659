import Overseer.Proofs.Supervisor.Traffic

/-!
Every launch ends in one exit. The report of an exit finds its process as it was launched, and makes
one move; launches and reports take turns, so no process is launched while a report is outstanding.
-/
namespace Overseer.Supervisor

def Exits (s : Supervisor) (op : Operation) (s' : Supervisor) (changes : List Change) : Prop :=
  match op with
  | .exited pid code =>
    s.state.isLive = true ∧ s.info = some ⟨pid, none⟩ ∧
      changes = [⟨s.state, s'.state⟩] ∧ s'.state.isExited = true ∧
      s'.info = some ⟨pid, some code⟩
  | _ => ∀ c ∈ changes, c.target.isExited = false

theorem Course.exits {s s' : Supervisor} {op : Operation} {changes : List Change}
    {kills : List UInt32} {begun : List CooperativeStop}
    (course : Course s op s' changes kills begun) : Exits s op s' changes := by
  cases course with
  | exit live pid info code => exact ⟨live, info, rfl, exitState_isExited code, rfl⟩
  | _ => simp [Exits, State.isExited]

inductive Turn where
  | launched (pid : UInt32)
  | exited (pid : UInt32) (code : Int32)
  deriving DecidableEq, Repr

def Deed.turn? (d : Deed) : Option Turn :=
  match d.operation with
  | .exited pid code => some (.exited pid code)
  | _ => d.launched?.map .launched

def turnsOf (log : List Deed) : List Turn := log.filterMap Deed.turn?

def turnsOfEnded (ended : List (UInt32 × Int32)) : List Turn :=
  ended.flatMap fun e => [.launched e.1, .exited e.1 e.2]

namespace Traffic

/-- Launches and exits take turns, and at most the last launch has not ended. -/
def Alternates (t : Traffic) : Prop :=
  ∃ ended, turnsOf t.log = turnsOfEnded ended ++ t.run.unreported.map .launched

theorem Sound.alternates_complete {t : Traffic} (sound : t.Sound) {op : Operation}
    (busy : t.executing = some op) (alternates : t.Alternates) : t.complete.Alternates := by
  obtain ⟨ended, turns⟩ := alternates
  have further : turnsOf t.complete.log =
      turnsOfEnded ended ++ t.run.unreported.map .launched ++
        (Deed.turn? ⟨t.supervisor, op⟩).toList := by
    rw [← turns, complete_eq busy]
    simp only [turnsOf, List.filterMap_append, filterMap_cons_toList, List.filterMap_nil,
      List.append_nil]
  have after : t.complete.run.unreported = t.run.unreportedAfter op := by
    rw [complete_eq busy]
    rfl
  rw [Alternates, further, after]
  cases op with
  | start launched =>
    cases launched with
    | ok pid =>
      cases live : t.supervisor.state.isLive with
      | true =>
        refine ⟨ended, ?_⟩
        simp [Deed.turn?, Deed.launched?, launches?, Run.unreportedAfter, permits_start, live]
      | false =>
        have none : t.run.unreported = [] :=
          sound.run.unreported.trans (awaited_of_not_isLive live)
        refine ⟨ended, ?_⟩
        simp [Deed.turn?, Deed.launched?, launches?, Run.unreportedAfter, permits_start, live, none]
    | error cause => exact ⟨ended, List.append_nil _⟩
  | exited pid code =>
    obtain ⟨_, _, only⟩ := sound.run.found (sound.awaited busy rfl)
    refine ⟨ended ++ [(pid, code)], ?_⟩
    simp [Deed.turn?, turnsOfEnded, Run.unreportedAfter, only]
  | stop | escalate => exact ⟨ended, List.append_nil _⟩

theorem Sound.alternates_advance {t : Traffic} (sound : t.Sound) {e : Event}
    (admitted : t.admits e = true) (alternates : t.Alternates) : (t.advance e).Alternates := by
  rcases advance_cases admitted with aside | ⟨r, rest, launched, rfl, free, queue⟩ | ⟨op, rfl, busy⟩
  · have same : (t.advance e).run.unreported = t.run.unreported := by
      rcases aside.run with same | ⟨pid, collected⟩
      · rw [same]
      · rw [collected]
        rfl
    rw [Alternates, aside.log, same]
    exact alternates
  · rw [Traffic.advance, take_eq queue]
    exact alternates
  · exact sound.alternates_complete busy alternates

theorem Sound.length_unreported {t : Traffic} (sound : t.Sound) : t.run.unreported.length ≤ 1 := by
  rw [sound.run.unreported, Supervisor.awaited]
  split
  next => cases t.run.supervisor.info <;> simp
  next => simp

/-- No process is launched while the exit of another is awaited. -/
theorem Sound.unreported_of_launching {t : Traffic} (sound : t.Sound) {pid : UInt32}
    (launching : t.launching = [pid]) : t.run.unreported = [] := by
  rw [Traffic.launching, Option.toList_eq_singleton_iff, Option.bind_eq_some_iff] at launching
  obtain ⟨op, _, launches⟩ := launching
  obtain ⟨_, idle⟩ := launches?_eq_some_iff.mp launches
  exact sound.run.unreported.trans (awaited_of_not_isLive idle)

theorem Sound.outstanding_eq {t : Traffic} (sound : t.Sound) :
    t.outstanding = t.run.unreported ++ t.launching := by
  have few : (t.run.unreported ++ t.launching).length ≤ 1 := by
    cases launching : t.executing.bind t.supervisor.launches? with
    | none => simpa [Traffic.launching, launching] using sound.length_unreported
    | some pid =>
      have only : t.launching = [pid] := by rw [Traffic.launching, launching]; rfl
      simp [only, sound.unreported_of_launching only]
  have perm := sound.outstanding
  rcases expected : t.run.unreported ++ t.launching with _ | ⟨pid, _ | ⟨other, rest⟩⟩
  · exact List.perm_nil.mp (expected ▸ perm)
  · exact List.perm_singleton.mp (expected ▸ perm)
  · simp [expected] at few

/-- Whatever is executed after whatever: a report finds its process alive and as it was launched,
and makes one move, into an exited state; nothing else leads there. Launches and reports take turns.
A start that is permitted finds nothing outstanding but the exit of the process that it launches
itself. -/
theorem execute_ends_once (settings : Settings) (events : List Event)
    (admitted : (fresh settings).admitsAll events = true) :
    let t := (fresh settings).execute events
    (∀ d ∈ t.log, Exits d.before d.operation d.after d.changes) ∧
      (∀ op, t.executing = some op →
        Exits t.supervisor op t.complete.supervisor (changesOf (t.supervisor.perform op).2)) ∧
      (∃ ended, turnsOf t.log = turnsOfEnded ended ++ t.run.unreported.map .launched) ∧
      t.run.unreported.length ≤ 1 ∧
      t.outstanding = t.run.unreported ++ t.launching ∧
      ∀ launched, t.executing = some (.start launched) → t.supervisor.permits .start = true →
        t.outstanding = launched.toOption.toList := by
  intro t
  have sound : t.Sound := sound_execute settings admitted
  have alternates : t.Sound ∧ t.Alternates := by
    refine execute_induction (motive := fun t => t.Sound ∧ t.Alternates) ?_ ?_ events admitted
    · exact ⟨sound_fresh settings, [], rfl⟩
    · intro t e ⟨sound, alternates⟩ admitted
      exact ⟨sound.advance e admitted, sound.alternates_advance admitted alternates⟩
  refine ⟨fun d member => (sound.deeds d member).course.exits, ?_, alternates.2,
    sound.length_unreported, sound.outstanding_eq, ?_⟩
  · intro op busy
    rw [complete_eq busy]
    exact (sound.deed busy).course.exits
  · intro launched busy permits
    have idle : t.supervisor.state.isLive = false := by simpa [permits_start] using permits
    have none : t.run.unreported = [] := sound.run.unreported.trans (awaited_of_not_isLive idle)
    rw [sound.outstanding_eq, none, launching, busy]
    cases launched <;> simp [launches?, permits, Except.toOption]

/-- A process ends while it is still being launched, and its id is given to the next one. -/
theorem execute_ends_once_early :
    let settings : Settings := ⟨"", "/bin/server", "", .empty, false⟩
    let events : List Event := [
      .start, .start, .take (.ok 7), .report 7 3, .stop none, .complete, .take (.ok 8), .complete,
      .take (.ok 0), .complete, .take (.ok 0), .complete, .start, .take (.ok 7)]
    let t := (fresh settings).execute events
    (fresh settings).admitsAll events = true ∧ turnsOf t.log = [.launched 7, .exited 7 3] ∧
      (∀ d ∈ t.log, Exits d.before d.operation d.after d.changes) ∧ t.outstanding = [7] := by
  intro settings events t
  have admitted : (fresh settings).admitsAll events = true := by decide
  have ends := execute_ends_once settings events admitted
  have only := ends.2.2.2.2.2
  have busy : t.executing = some (.start (.ok 7)) := rfl
  have permits : t.supervisor.permits .start = true := by decide
  exact ⟨admitted, by decide, ends.1, only (.ok 7) busy permits⟩

end Traffic

end Overseer.Supervisor
