import Overseer.Proofs.Supervisor.Race

/-!
A process that is being stopped: the stops that are after it, what is done in the meantime and when,
and what each event does to all that is about this one process.
-/
namespace Overseer.Supervisor

/-- Something that was done, and when. -/
structure Happening where
  time : Nat
  deed : Deed

def killTimes (pid : UInt32) (happenings : List Happening) : List Nat :=
  happenings.flatMap fun h => (h.deed.kills.filter fun p => p = pid).map fun _ => h.time

def exitsOf (pid : UInt32) (happenings : List Happening) : List Happening :=
  happenings.filter fun h => h.deed.operation.reported? = some pid

theorem killTimes_append (pid : UInt32) (earlier later : List Happening) :
    killTimes pid (earlier ++ later) = killTimes pid earlier ++ killTimes pid later :=
  List.flatMap_append

theorem exitsOf_append (pid : UInt32) (earlier later : List Happening) :
    exitsOf pid (earlier ++ later) = exitsOf pid earlier ++ exitsOf pid later :=
  List.filter_append _ _

/-- The exit of the process ends the stop. Until then only the escalation does anything. -/
theorem Course.ending {s s' : Supervisor} {op : Operation} {changes : List Change}
    {kills : List UInt32} {begun : List CooperativeStop} {pid : UInt32}
    (course : Course s op s' changes kills begun) (state : s.state = .stopping) :
    begun = [] ∧ ∀ code, op = .exited pid code →
      kills = [] ∧ s'.info = some ⟨pid, some code⟩ ∧ op.escalated? = none := by
  cases course with
  | exit _ p known code =>
    refine ⟨rfl, ?_⟩
    rintro _ ⟨⟩
    exact ⟨rfl, rfl, rfl⟩
  | ask running | kill running => simp [state] at running
  | _ => exact ⟨rfl, by rintro _ ⟨⟩⟩

/-- What is known of a process that is gone is left as it is until another one is launched. -/
theorem Course.remains {s s' : Supervisor} {op : Operation} {changes : List Change}
    {kills : List UInt32} {begun : List CooperativeStop} {pid : UInt32}
    (course : Course s op s' changes kills begun) (fresh : s.launches? op ≠ some pid)
    (idle : s.info.map ProcessInfo.id = some pid → s.state.isLive = false)
    (known : s'.info.map ProcessInfo.id = some pid) :
    s'.info = s.info ∧ s'.state = s.state ∧ s'.killed = s.killed := by
  have apart {p : UInt32} (info : s.info = some ⟨p, none⟩) (live : s.state.isLive = true) :
      p ≠ pid := by
    rintro rfl
    simp [idle (by simp [info])] at live
  cases course with
  | startRefused | stopRefused | escalateInVain => exact ⟨rfl, rfl, rfl⟩
  | launch idle' p => simp_all [launches?, permits_start]
  | launchFailed => simp at known
  | kill running p info | ask running p info =>
    exact absurd (by simpa [info] using known) (apart info (by simp [running]))
  | exit live p info => exact absurd (by simpa using known) (apart info live)
  | escalate stopping p info =>
    exact absurd (by simpa [info] using known) (apart info (by simp [stopping]))

def graceful (code : Int32) : State := if code = 0 then .exitedSuccessfully else .exitedWithError

theorem verdict_unkilled (code : Int32) :
    Lifecycle.verdict ⟨false, some code⟩ = graceful code := by
  simp [Lifecycle.verdict, graceful]

def Stopping.isAfter (pid : UInt32) (s : Stopping) : Bool := s.stop.pid = pid

/-- As time passes a stop is over at its deadline, and escalates then. -/
theorem Stopping.step_passed {s : Stopping} {deadline : Nat} (due : s.deadline? = some deadline)
    (now : Nat) :
    deadline ≤ now ∧ (s.step now .passed).1.isFinished = true ∧
        Stopping.escalationsOf (s.step now .passed).2 = [s.stop.pid] ∨
      now < deadline ∧ s.step now .passed = (s, []) := by
  have passed : s.isOverdue now = decide (deadline ≤ now) := by
    rw [Stopping.isOverdue, due, Option.any_some]
  by_cases overdue : deadline ≤ now
  · refine .inl ⟨overdue, ?_⟩
    rw [decide_eq_true overdue] at passed
    cases phase : s.phase with
    | asking | waiting since =>
      simp [Stopping.step, passed, phase, Stopping.isFinished, Stopping.escalationsOf]
    | finished => simp [Stopping.deadline?, phase] at due
  · refine .inr ⟨Nat.lt_of_not_le overdue, ?_⟩
    rw [decide_eq_false overdue] at passed
    simp [Stopping.step, passed]

namespace Traffic

def happens (t : Traffic) : Event → List Happening
  | .complete => t.executing.toList.map fun op => ⟨t.now, ⟨t.supervisor, op⟩⟩
  | _ => []

/-- What is done in a run from here on, in order. -/
def chronicle (t : Traffic) : List Event → List Happening
  | [] => []
  | e :: events => t.happens e ++ (t.advance e).chronicle events

def stopsAfter (t : Traffic) (pid : UInt32) : List Stopping := t.stops.filter (Stopping.isAfter pid)

def escalationsDue (t : Traffic) (pid : UInt32) : Nat :=
  (t.queue.filterMap Request.escalated? ++
    (t.executing.bind Operation.escalated?).toList).count pid

structure View where
  mine : List Stopping
  due : Nat
  state : State
  info : Option ProcessInfo
  killed : Bool
  now : Nat

def view (t : Traffic) (pid : UInt32) : View :=
  ⟨t.stopsAfter pid, t.escalationsDue pid, t.supervisor.state, t.supervisor.info,
    t.supervisor.killed, t.now⟩

variable {t : Traffic} {pid : UInt32}

theorem exists_split {α : Type} {l : List α} {index : Nat} {a : α} (found : l[index]? = some a) :
    ∃ xs ys, l = xs ++ a :: ys ∧ (∀ b, l.set index b = xs ++ b :: ys) ∧
      l.eraseIdx index = xs ++ ys := by
  obtain ⟨bound, rfl⟩ := List.getElem?_eq_some_iff.mp found
  refine ⟨l.take index, l.drop (index + 1), ?_, fun b => ?_, ?_⟩
  · rw [List.getElem_cons_drop, List.take_append_drop]
  · rw [List.set_eq_take_append_cons_drop, if_pos bound]
  · exact List.eraseIdx_eq_take_drop_succ l index

/-- No stop is after the process. -/
theorem mine_due_of_alone (alone : pid ∉ t.pursued) :
    t.stopsAfter pid = [] ∧ t.escalationsDue pid = 0 := by
  simp only [pursued, List.append_assoc, List.mem_append, not_or, List.mem_map, not_exists,
    not_and] at alone
  refine ⟨List.filter_eq_nil_iff.mpr fun s member => ?_, List.count_eq_zero.mpr ?_⟩
  · simpa [Stopping.isAfter] using alone.1 s member
  · simpa [not_or] using alone.2

theorem view_put {r : Request} (noEscalation : r.escalated? = none) :
    (t.put r).view pid = t.view pid := by
  have due : (t.put r).escalationsDue pid = t.escalationsDue pid := by
    simp [escalationsDue, put, noEscalation]
  rw [view, due, view]
  rfl

theorem view_take (free : t.executing = none) {r : Request} {rest : List Request}
    (queue : t.queue = r :: rest) (launched : Except SystemError UInt32) :
    (t.take launched).view pid = t.view pid := by
  have due : (t.take launched).escalationsDue pid = t.escalationsDue pid := by
    rw [take_eq queue]
    simp only [escalationsDue, free, queue, filterMap_cons_toList, Option.bind_none,
      Option.bind_some, Option.toList_none, List.append_nil, List.count_append,
      Request.escalated?_operation]
    omega
  rw [view, due, take_eq queue, view]
  rfl

theorem tell_eq {index : Nat} {s : Stopping} (found : t.stops[index]? = some s)
    (e : Stopping.Event) :
    t.tell index e =
      { t with
        stops :=
          if (s.step t.now e).1.isFinished then t.stops.eraseIdx index
          else t.stops.set index (s.step t.now e).1
        queue := t.queue ++ (Stopping.escalationsOf (s.step t.now e).2).map .escalate } := by
  simp only [tell, found]

theorem escalationsDue_tell {index : Nat} {s : Stopping} (found : t.stops[index]? = some s)
    (e : Stopping.Event) :
    (t.tell index e).escalationsDue pid =
      t.escalationsDue pid + (Stopping.escalationsOf (s.step t.now e).2).count pid := by
  rw [tell_eq found, escalationsDue, escalationsDue, List.filterMap_append,
    filterMap_escalated?_escalate]
  simp only [List.count_append]
  omega

/-- A stop that is told of something is replaced by what is left of it. -/
theorem exists_stops_tell {index : Nat} {s : Stopping} (found : t.stops[index]? = some s)
    (e : Stopping.Event) :
    ∃ xs ys, t.stops = xs ++ [s] ++ ys ∧
      (t.tell index e).stops =
        xs ++ (if (s.step t.now e).1.isFinished then [] else [(s.step t.now e).1]) ++ ys := by
  obtain ⟨xs, ys, stops, set, erase⟩ := exists_split found
  refine ⟨xs, ys, by simpa using stops, ?_⟩
  rw [tell_eq found]
  split <;> simp [set, erase]

/-- What happens to another stop is of no interest, and neither is an event without a stop. -/
theorem view_tell (t : Traffic) (pid : UInt32) (index : Nat) (e : Stopping.Event) :
    (t.tell index e).view pid = t.view pid ∨
      ∃ s xs ys, t.stops[index]? = some s ∧ s.isAfter pid = true ∧
        t.stopsAfter pid = xs ++ s :: ys ∧
        (t.tell index e).view pid =
          { t.view pid with
            mine := xs ++ (if (s.step t.now e).1.isFinished then [] else [(s.step t.now e).1]) ++ ys
            due := t.escalationsDue pid +
              (Stopping.escalationsOf (s.step t.now e).2).count pid } := by
  cases found : t.stops[index]? with
  | none =>
    left
    simp [tell, found]
  | some s =>
    obtain ⟨same, escalates⟩ := s.step_cases t.now e
    obtain ⟨xs, ys, stops, stops'⟩ := exists_stops_tell found e
    set left := if (s.step t.now e).1.isFinished then [] else [(s.step t.now e).1] with left_def
    have kept (x : Stopping) (member : x ∈ left) : x.isAfter pid = s.isAfter pid := by
      have eq : x = (s.step t.now e).1 := by
        rw [left_def] at member
        split at member <;> simp_all
      rw [eq, Stopping.isAfter, same, Stopping.isAfter]
    have after : (t.tell index e).view pid =
        { t.view pid with
          mine := (xs ++ left ++ ys).filter (Stopping.isAfter pid)
          due := t.escalationsDue pid +
            (Stopping.escalationsOf (s.step t.now e).2).count pid } := by
      rw [view, escalationsDue_tell found, stopsAfter, stops', tell_eq found]
      rfl
    rw [List.filter_append, List.filter_append] at after
    cases ours : s.isAfter pid with
    | true =>
      refine .inr ⟨s, xs.filter (Stopping.isAfter pid), ys.filter (Stopping.isAfter pid), rfl, ours,
        ?_, ?_⟩
      · simp [stopsAfter, stops, ours]
      · rw [after, List.filter_eq_self.mpr fun x member => (kept x member).trans ours]
    | false =>
      left
      have none : (Stopping.escalationsOf (s.step t.now e).2).count pid = 0 := by
        have apart : s.stop.pid ≠ pid := by simpa [Stopping.isAfter] using ours
        rcases escalates with none | ⟨one, _⟩
        · simp [none]
        · simp [one, apart]
      have gone : left.filter (Stopping.isAfter pid) = [] :=
        List.filter_eq_nil_iff.mpr fun x member => by simp [kept x member, ours]
      rw [after, gone, none]
      simp [view, stopsAfter, stops, ours]

theorem view_complete (pid : UInt32) {op : Operation} (busy : t.executing = some op) :
    ∃ due, due + op.escalated?.toList.count pid = t.escalationsDue pid ∧
      t.complete.view pid =
        { mine := t.stopsAfter pid ++ ((Deed.begun ⟨t.supervisor, op⟩).map
            fun stop => ⟨stop, t.now, .asking⟩).filter (Stopping.isAfter pid)
          due
          state := (t.supervisor.perform op).1.state
          info := (t.supervisor.perform op).1.info
          killed := (t.supervisor.perform op).1.killed
          now := t.now } := by
  refine ⟨t.complete.escalationsDue pid, ?_, ?_⟩
  · rw [complete_eq busy]
    simp [escalationsDue, busy, List.count_append]
  · rw [view, complete_eq busy, stopsAfter, List.filter_append]
    rfl

theorem exitsOf_singleton (pid : UInt32) (h : Happening) :
    exitsOf pid [h] = if h.deed.operation.reported? = some pid then [h] else [] := by
  by_cases reported : h.deed.operation.reported? = some pid <;> simp [exitsOf, reported]

/-- While a process is being stopped an operation is of no interest, or it is the escalation, or the
report of the exit. -/
theorem complete_stopping (pid : UInt32) {op : Operation} (busy : t.executing = some op)
    (sound : t.Sound) (state : t.supervisor.state = .stopping)
    (info : t.supervisor.info = some ⟨pid, none⟩)
    {h : Happening} (done : h = ⟨t.now, t.supervisor, op⟩) :
    (t.complete.view pid = t.view pid ∧ killTimes pid [h] = [] ∧ exitsOf pid [h] = []) ∨
      (t.complete.view pid =
          { t.view pid with due := t.escalationsDue pid - 1, killed := true } ∧
        0 < t.escalationsDue pid ∧ killTimes pid [h] = [t.now] ∧ exitsOf pid [h] = []) ∨
      ∃ code, op = .exited pid code ∧ killTimes pid [h] = [] ∧ exitsOf pid [h] = [h] ∧
        h.deed.after.info = some ⟨pid, some code⟩ ∧
        h.deed.after.state = Lifecycle.verdict ⟨t.supervisor.killed, some code⟩ ∧
        h.deed.after.killed = t.supervisor.killed ∧ h.deed.after.state.isLive = false := by
  subst done
  have course := (sound.deed busy).course
  obtain ⟨begun, ending⟩ := course.ending state
  obtain ⟨due, counted, view_eq⟩ := view_complete pid busy
  rcases course.stopping state info with
    ⟨code, rfl, _, verdict, killed, gone⟩ | ⟨unreported, state', info', _, kills, killed⟩
  · obtain ⟨kills, known, _⟩ := ending code rfl
    refine .inr (.inr ⟨code, rfl, ?_, ?_, known, verdict, killed, gone⟩)
    · simp [killTimes, kills]
    · simp [exitsOf_singleton, Operation.reported?]
  · have exits : exitsOf pid [⟨t.now, t.supervisor, op⟩] = [] := by
      rw [exitsOf_singleton, if_neg unreported]
    have after : t.complete.view pid =
        { t.view pid with
          due, killed := t.supervisor.killed || decide (op.escalated? = some pid) } := by
      rw [view_eq, begun]
      simp only [Deed.after] at state' info' killed
      simp [view, state', info', killed, state, info]
    by_cases escalates : op.escalated? = some pid
    · have counted : due + 1 = t.escalationsDue pid := by simpa [escalates] using counted
      refine .inr (.inl ⟨?_, by omega, ?_, exits⟩)
      · rw [after, ← counted]
        simp [escalates]
      · simp [killTimes, kills, escalates]
    · have none : op.escalated?.toList.count pid = 0 := by
        cases other : op.escalated? with
        | none => rfl
        | some p => exact List.count_eq_zero.mpr (by simpa [other, eq_comm] using escalates)
      have counted : due = t.escalationsDue pid := by omega
      refine .inl ⟨?_, ?_, exits⟩
      · rw [after, counted]
        simp [escalates, view]
      · simp [killTimes, kills, escalates]

/-- Once a process is gone no operation is of any interest to it until it is launched again. -/
theorem complete_gone (pid : UInt32) {op : Operation} (busy : t.executing = some op)
    (sound : t.Sound) (fresh : t.supervisor.launches? op ≠ some pid)
    (idle : t.supervisor.info.map ProcessInfo.id = some pid → t.supervisor.state.isLive = false)
    {h : Happening} (done : h = ⟨t.now, t.supervisor, op⟩) :
    killTimes pid [h] = [] ∧ exitsOf pid [h] = [] ∧ (t.complete.view pid).now = t.now ∧
      ((t.complete.view pid).info.map ProcessInfo.id = some pid →
        (t.complete.view pid).info = t.supervisor.info ∧
          (t.complete.view pid).state = t.supervisor.state ∧
          (t.complete.view pid).killed = t.supervisor.killed) := by
  subst done
  have course := (sound.deed busy).course
  obtain ⟨_, unreported, spared, _⟩ := course.gone fresh fun live known => by
    simp [idle known] at live
  obtain ⟨due, _, view_eq⟩ := view_complete pid busy
  refine ⟨?_, by rw [exitsOf_singleton, if_neg unreported], by rw [view_eq], fun known => ?_⟩
  · simp only [killTimes, List.flatMap_singleton, List.map_eq_nil_iff, List.filter_eq_nil_iff,
      decide_eq_true_eq]
    rintro p member rfl
    exact spared member
  · rw [view_eq] at known ⊢
    exact course.remains fresh idle known

end Traffic

end Overseer.Supervisor
