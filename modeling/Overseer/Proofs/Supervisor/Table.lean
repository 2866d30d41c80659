import Overseer.Proofs.Supervisor.Coherence

/-!
A supervisor refines the plain machine of the table. That machine knows no handles and launches
nothing: it folds `Lifecycle.next` over the triggers that the operations amount to. The abstraction
is a function, `view`, and every operation commutes with it.
-/
namespace Overseer

namespace Lifecycle

/-- The moves among some events, in order; a trigger that is refused is passed over. -/
def moves (s : State) : List Event → List Change
  | [] => []
  | e :: events =>
    match next s e.trigger e.context with
    | none => moves s events
    | some target => ⟨s, target⟩ :: moves target events

def Linked (source target : State) : List Change → Prop
  | [] => source = target
  | c :: changes => c.source = source ∧ Linked c.target target changes

theorem moves_cons (s : State) (e : Event) (events : List Event) :
    moves s (e :: events) =
      ((next s e.trigger e.context).toList.map fun target => ⟨s, target⟩) ++
        moves (advance s e) events := by
  rw [moves, advance]
  cases next s e.trigger e.context <;> rfl

theorem moves_append (s : State) (earlier later : List Event) :
    moves s (earlier ++ later) = moves s earlier ++ moves (earlier.foldl advance s) later := by
  induction earlier generalizing s with
  | nil => rfl
  | cons e earlier ih =>
    rw [List.cons_append, moves_cons, ih, moves_cons, List.append_assoc]
    rfl

theorem linked_moves (s : State) (events : List Event) :
    Linked s (events.foldl advance s) (moves s events) := by
  induction events generalizing s with
  | nil => rfl
  | cons e events ih =>
    have later := ih (advance s e)
    rw [List.foldl_cons, moves_cons]
    cases permitted : next s e.trigger e.context with
    | none => simpa [advance_of_refused permitted] using later
    | some target =>
      rw [advance_of_next permitted] at later ⊢
      exact ⟨rfl, later⟩

end Lifecycle

namespace Supervisor

/-- What the table alone has to go by: a state, what guards see, and the process launched last. -/
structure Tabular where
  state : State := .notStarted
  context : Lifecycle.Context := {}
  process : Option UInt32 := none
  deriving DecidableEq, Repr

namespace Tabular

def permits (m : Tabular) (t : Trigger) : Bool :=
  (Lifecycle.next m.state t m.context).isSome

/-- The triggers that an operation amounts to, each with what guards see of it. A launch that fails
follows a start that was permitted. -/
def triggers (m : Tabular) : Operation → List Lifecycle.Event
  | .start (.ok _) => [⟨.start, m.context⟩]
  | .start (.error _) =>
    if m.permits .start then [⟨.start, m.context⟩, ⟨.startError, {}⟩] else [⟨.start, m.context⟩]
  | .stop _ => [⟨.stop, m.context⟩]
  | .exited _ code => [⟨.processExit, { m.context with exitCode := some code }⟩]
  | .escalate _ => []

def contextAfter (m : Tabular) : Operation → Lifecycle.Context
  | .start _ => if m.permits .start then {} else m.context
  | .stop timeout =>
    if m.permits .stop ∧ (timeout = none ∨ timeout = some .zero) then
      { m.context with killed := true }
    else m.context
  | .exited _ code => { m.context with exitCode := some code }
  | .escalate pid =>
    if m.state = .stopping ∧ m.process = some pid then { m.context with killed := true }
    else m.context

def processAfter (m : Tabular) : Operation → Option UInt32
  | .start launched => if m.permits .start then launched.toOption else m.process
  | _ => m.process

def advance (m : Tabular) (op : Operation) : Tabular where
  state := (m.triggers op).foldl Lifecycle.advance m.state
  context := m.contextAfter op
  process := m.processAfter op

/-- The triggers of all operations, in order. -/
def history (m : Tabular) : List Operation → List Lifecycle.Event
  | [] => []
  | op :: ops => m.triggers op ++ (m.advance op).history ops

theorem state_foldl_advance (m : Tabular) (ops : List Operation) :
    (ops.foldl advance m).state = (m.history ops).foldl Lifecycle.advance m.state := by
  induction ops generalizing m with
  | nil => rfl
  | cons op ops ih =>
    rw [List.foldl_cons, ih, history, List.foldl_append]
    rfl

theorem history_append (m : Tabular) (earlier later : List Operation) :
    m.history (earlier ++ later) =
      m.history earlier ++ (earlier.foldl advance m).history later := by
  induction earlier generalizing m with
  | nil => rfl
  | cons op earlier ih =>
    rw [List.cons_append, history, history, ih, List.append_assoc]
    rfl

end Tabular

variable {s : Supervisor}

def view (s : Supervisor) : Tabular :=
  ⟨s.state, s.context, s.info.map ProcessInfo.id⟩

@[simp] theorem view_state : s.view.state = s.state := rfl

@[simp] theorem view_context : s.view.context = s.context := rfl

@[simp] theorem view_process : s.view.process = s.info.map ProcessInfo.id := rfl

theorem changesOf_append (earlier later : List Effect) :
    changesOf (earlier ++ later) = changesOf earlier ++ changesOf later :=
  List.filterMap_append

/-- An operation moves as the table has it, once its triggers are known. -/
structure Moves (s : Supervisor) (op : Operation) : Prop where
  state : (s.perform op).1.state = (s.view.triggers op).foldl Lifecycle.advance s.state
  changes : changesOf (s.perform op).2 = Lifecycle.moves s.state (s.view.triggers op)

theorem fire_moves {t : Trigger} {onward : Supervisor → Supervisor × List Effect}
    (keeps : ∀ u, (onward u).1.state = u.state ∧ changesOf (onward u).2 = []) :
    (s.fire t onward).1.state = Lifecycle.advance s.state ⟨t, s.context⟩ ∧
      changesOf (s.fire t onward).2 = Lifecycle.moves s.state [⟨t, s.context⟩] := by
  cases row : Lifecycle.next s.state t s.context with
  | none =>
    rw [fire_of_refused row]
    simp [Lifecycle.advance, Lifecycle.moves, row, changesOf]
  | some target =>
    obtain ⟨state, none⟩ := keeps { s with state := target }
    rw [fire_of_permitted row]
    constructor
    · simp [Lifecycle.advance, row, state]
    · simp only [Lifecycle.moves, row]
      exact congrArg (List.cons _) none

theorem start_moves (launched : Except SystemError UInt32) : Moves s (.start launched) := by
  have permits : s.view.permits .start = !s.state.isLive := permits_start
  cases live : s.state.isLive with
  | true =>
    have triggers : s.view.triggers (.start launched) = [⟨.start, s.context⟩] := by
      cases launched <;> simp [Tabular.triggers, permits, live]
    constructor
    · simp [perform, start_of_isLive live, triggers, Lifecycle.advance, Lifecycle.next_start, live]
    · simp [perform, start_of_isLive live, triggers, Lifecycle.moves, Lifecycle.next_start, live,
        changesOf]
  | false =>
    cases launched with
    | ok pid =>
      constructor
      · simp [perform, start_ok live, Tabular.triggers, Lifecycle.advance, Lifecycle.next_start,
          live]
      · simp [perform, start_ok live, Tabular.triggers, Lifecycle.moves, Lifecycle.next_start,
          live, changesOf]
    | error cause =>
      constructor
      · simp [perform, start_error live, Tabular.triggers, permits, live, Lifecycle.advance,
          Lifecycle.next_start, Lifecycle.next_startError]
      · simp [perform, start_error live, Tabular.triggers, permits, live, Lifecycle.moves,
          Lifecycle.next_start, Lifecycle.next_startError, changesOf]

theorem beginStop_keeps (timeout : Option Duration) (u : Supervisor) :
    (u.beginStop timeout).1.state = u.state ∧ changesOf (u.beginStop timeout).2 = [] := by
  unfold beginStop kill
  repeat' split
  all_goals exact ⟨rfl, rfl⟩

theorem handOver_keeps (u : Supervisor) :
    u.handOver.1.state = u.state ∧ changesOf u.handOver.2 = [] := by
  refine ⟨rfl, ?_⟩
  unfold handOver
  cases u.cooperativeStop <;> rfl

theorem stop_moves (timeout : Option Duration) : Moves s (.stop timeout) := by
  obtain ⟨state, changes⟩ := fire_moves (s := s) (t := .stop) (beginStop_keeps timeout)
  have last := handOver_keeps (s.fire .stop fun u => u.beginStop timeout).1
  constructor
  · exact last.1.trans state
  · simp only [perform, stop, changesOf_append, last.2, List.append_nil]
    exact changes

theorem reportExit_moves {info : ProcessInfo} (known : s.info = some info) (code : Int32) :
    Moves s (.exited info.id code) := by
  obtain ⟨state, changes⟩ := @fire_moves { s with info := some { info with exitCode := some code } }
    .processExit (fun u => (u, [])) fun _ => ⟨rfl, rfl⟩
  constructor
  · simp only [perform, reportExit, known, if_true]
    exact state
  · simp only [perform, reportExit, known, if_true]
    exact changes

theorem escalate_moves (pid : UInt32) : Moves s (.escalate pid) := by
  constructor
  · simp only [perform, escalate, kill]
    repeat' split
    all_goals rfl
  · simp only [perform, escalate, kill]
    repeat' split
    all_goals rfl

/-- An operation does to the view of a supervisor what it does to the machine of the table. -/
theorem Moves.view_perform {op : Operation} (moves : Moves s op)
    (context : (s.perform op).1.context = s.view.contextAfter op)
    (process : (s.perform op).1.info.map ProcessInfo.id = s.view.processAfter op) :
    (s.perform op).1.view = s.view.advance op := by
  rw [view, Tabular.advance, moves.state, context, process]
  rfl

theorem view_start (launched : Except SystemError UInt32) :
    (s.perform (.start launched)).1.view = s.view.advance (.start launched) := by
  have permits : s.view.permits .start = !s.state.isLive := permits_start
  apply (start_moves launched).view_perform
  · cases live : s.state.isLive with
    | true => simp [perform, start_of_isLive live, Tabular.contextAfter, permits, live]
    | false =>
      cases launched with
      | ok pid => simp [perform, start_ok live, context, Tabular.contextAfter, permits, live]
      | error cause =>
        simp [perform, start_error live, context, Tabular.contextAfter, permits, live]
  · cases live : s.state.isLive with
    | true => simp [perform, start_of_isLive live, Tabular.processAfter, permits, live]
    | false =>
      cases launched with
      | ok pid =>
        simp [perform, start_ok live, Tabular.processAfter, permits, live, Except.toOption]
      | error cause =>
        simp [perform, start_error live, Tabular.processAfter, permits, live, Except.toOption]

/-- A stop is applied to a process that is there, so that one without a timeout kills it. -/
theorem view_stop (coherent : Coherent s) (timeout : Option Duration) :
    (s.perform (.stop timeout)).1.view = s.view.advance (.stop timeout) := by
  have permits : s.view.permits .stop = decide (s.state = .running) := permits_stop
  have atOnce := limit?_eq_none_iff timeout
  apply (stop_moves timeout).view_perform
  · rw [perform, coherent.stop_fst]
    by_cases running : s.state = .running
    · cases limit : limit? timeout with
      | none => simp [context, Tabular.contextAfter, permits, running, atOnce.mp limit]
      | some d =>
        have asked : ¬(timeout = none ∨ timeout = some .zero) := by simp [← atOnce, limit]
        simp [context, Tabular.contextAfter, running, asked]
    · simp [Tabular.contextAfter, permits, running]
  · rw [perform, coherent.stop_fst]
    split
    next => rfl
    next => rfl

theorem view_exited (live : s.state.isLive = true) {info : ProcessInfo} (known : s.info = some info)
    (code : Int32) :
    (s.perform (.exited info.id code)).1.view = s.view.advance (.exited info.id code) := by
  apply (reportExit_moves known code).view_perform
  · simp [perform, reportExit_of_isLive live known, Tabular.contextAfter, context]
  · simp [perform, reportExit_of_isLive live known, Tabular.processAfter, known]

theorem view_escalate (coherent : Coherent s) (pid : UInt32) :
    (s.perform (.escalate pid)).1.view = s.view.advance (.escalate pid) := by
  apply (escalate_moves pid).view_perform
  · rw [perform, coherent.escalate_fst]
    by_cases hit : s.view.state = .stopping ∧ s.view.process = some pid
    · rw [Tabular.contextAfter, if_pos hit]
      exact congrArg context (if_pos hit)
    · rw [Tabular.contextAfter, if_neg hit]
      exact congrArg context (if_neg hit)
  · rw [perform, coherent.escalate_fst]
    split
    next => rfl
    next => rfl

/-- Only the report of an exit asks something of the supervisor: that its process is known. -/
theorem moves_of_known {op : Operation}
    (known : ∀ pid code, op = .exited pid code → s.info = some ⟨pid, none⟩) : Moves s op := by
  cases op with
  | start launched => exact start_moves launched
  | stop timeout => exact stop_moves timeout
  | exited pid code => exact reportExit_moves (known pid code rfl) code
  | escalate pid => exact escalate_moves pid

theorem Run.Sound.known {r : Run} (sound : r.Sound) {op : Operation}
    (admitted : r.admits (.perform op) = true) (pid : UInt32) (code : Int32)
    (report : op = .exited pid code) : r.supervisor.info = some ⟨pid, none⟩ := by
  subst report
  exact (sound.found (by simpa [Run.admits] using admitted)).2.1

theorem Run.Sound.view_perform {r : Run} (sound : r.Sound) {op : Operation}
    (admitted : r.admits (.perform op) = true) :
    (r.supervisor.perform op).1.view = r.supervisor.view.advance op := by
  cases op with
  | start launched => exact view_start launched
  | stop timeout => exact view_stop sound.coherent timeout
  | exited pid code =>
    obtain ⟨live, info, _⟩ := sound.found (by simpa [Run.admits] using admitted)
    exact view_exited live info code
  | escalate pid => exact view_escalate sound.coherent pid

def operationsOf (events : List Event) : List Operation :=
  events.filterMap fun
    | .perform op => some op
    | .collect _ => none

theorem Run.Sound.follows {r : Run} (sound : r.Sound) (events : List Event)
    (admitted : r.admitsAll events = true) :
    (r.execute events).supervisor.view =
        (operationsOf events).foldl Tabular.advance r.supervisor.view ∧
      changesOf (r.execute events).effects =
        changesOf r.effects ++
          Lifecycle.moves r.supervisor.state (r.supervisor.view.history (operationsOf events)) := by
  induction events generalizing r with
  | nil => exact ⟨rfl, by simp [Run.execute, operationsOf, Tabular.history, Lifecycle.moves]⟩
  | cons e events ih =>
    obtain ⟨first, later⟩ : r.admits e = true ∧ (r.advance e).admitsAll events = true := by
      simpa [Run.admitsAll] using admitted
    obtain ⟨view, changes⟩ := ih (sound.advance e first) later
    cases e with
    | collect pid => exact ⟨view, changes⟩
    | perform op =>
      have moves := moves_of_known (sound.known first)
      have commutes := sound.view_perform first
      constructor
      · rw [Run.execute, view]
        simp only [Run.advance, commutes]
        rfl
      · rw [Run.execute, changes]
        simp only [Run.advance, changesOf_append, moves.changes, commutes, moves.state]
        rw [List.append_assoc, ← Lifecycle.moves_append]
        rfl

theorem view_drop (s : Supervisor) : s.drop.1.view = s.view := by
  unfold drop
  split <;> rfl

theorem info_drop (s : Supervisor) : s.drop.1.info = s.info := by
  unfold drop
  split <;> rfl

/-- The state is the fold of the table over the triggers that the operations of a run amount to,
what guards see is what that fold sees, and the changes that were broadcast are its moves, linked
from the first state to the present one. An operation that was executing when the supervisor was
dropped follows the table as well. -/
theorem execute_follows_table (settings : Settings) (events : List Event)
    (admitted : (Run.fresh settings).admitsAll events = true) :
    let r := (Run.fresh settings).execute events
    let history := Tabular.history {} (operationsOf events)
    r.supervisor.state = history.foldl Lifecycle.advance .notStarted ∧
      r.supervisor.context = ((operationsOf events).foldl Tabular.advance {}).context ∧
      changesOf r.effects = Lifecycle.moves .notStarted history ∧
      Lifecycle.Linked .notStarted r.supervisor.state (changesOf r.effects) ∧
      ∀ op, r.admits (.perform op) = true →
        let last := r.supervisor.drop.1.perform op
        let history := Tabular.history {} (operationsOf events ++ [op])
        last.1.state = history.foldl Lifecycle.advance .notStarted ∧
          changesOf (r.effects ++ last.2) = Lifecycle.moves .notStarted history := by
  intro r history
  have sound : r.Sound := Run.sound_execute settings admitted
  obtain ⟨view, changes⟩ := (Run.sound_fresh settings).follows events admitted
  have state : r.supervisor.state = history.foldl Lifecycle.advance .notStarted :=
    (congrArg Tabular.state view).trans (Tabular.state_foldl_advance {} _)
  have moves : changesOf r.effects = Lifecycle.moves .notStarted history := changes
  refine ⟨state, congrArg Tabular.context view, moves, ?_, ?_⟩
  · rw [moves, state]
    exact Lifecycle.linked_moves _ _
  · intro op possible last longer
    have extended : longer = history ++ r.supervisor.view.triggers op := by
      have machine : (operationsOf events).foldl Tabular.advance {} = r.supervisor.view := view.symm
      simp only [longer, Tabular.history_append, machine, Tabular.history, List.append_nil]
      rfl
    have dropped : r.supervisor.drop.1.view = r.supervisor.view := view_drop _
    have same : r.supervisor.drop.1.state = r.supervisor.state := congrArg Tabular.state dropped
    have final : Moves r.supervisor.drop.1 op := by
      apply moves_of_known
      rw [info_drop]
      exact sound.known possible
    constructor
    · rw [final.state, dropped, same, state, extended, List.foldl_append]
    · rw [changesOf_append, final.changes, dropped, same, moves, extended, Lifecycle.moves_append,
        state]

/-- A stop that escalates after its process ended, a start that comes too early, a restart that
fails, and a process that ends while it runs. -/
theorem execute_follows_table_restarts :
    let settings : Settings := ⟨"", "/bin/server", "", .empty, false⟩
    let events : List Event := [
      .perform (.stop none), .perform (.start (.ok 7)),
      .perform (.stop (some (.ofSeconds 5 (by decide)))), .collect 7, .perform (.escalate 7),
      .perform (.start (.ok 8)), .perform (.exited 7 0), .perform (.start (.error (.errno ⟨2⟩))),
      .perform (.start (.ok 7)), .perform (.exited 7 3)]
    let r := (Run.fresh settings).execute events
    let history := Tabular.history {} (operationsOf events)
    (Run.fresh settings).admitsAll events = true ∧
      r.supervisor.state = history.foldl Lifecycle.advance .notStarted ∧
      history.foldl Lifecycle.advance .notStarted = .exitedUnexpectedly ∧
      changesOf r.effects = Lifecycle.moves .notStarted history ∧
      Lifecycle.moves .notStarted history = [
        ⟨.notStarted, .running⟩, ⟨.running, .stopping⟩, ⟨.stopping, .exitedKilled⟩,
        ⟨.exitedKilled, .running⟩, ⟨.running, .startFailed⟩, ⟨.startFailed, .running⟩,
        ⟨.running, .exitedUnexpectedly⟩] := by
  intro settings events r history
  have admitted : (Run.fresh settings).admitsAll events = true := by decide
  obtain ⟨state, _, changes, _⟩ := execute_follows_table settings events admitted
  exact ⟨admitted, state, by decide, changes, by decide⟩

end Supervisor

end Overseer
