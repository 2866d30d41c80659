import Mathlib.Data.List.Perm.Basic
import Overseer.Proofs.Supervisor.Deeds
import Overseer.Supervisor.Stopping

/-!
A supervisor that is not dropped, with all who put requests into its queue: callers, the reapers of
the processes that it launched, and its cooperative stops, any number of which may be winding down.
They do so at any time, also while an operation is executing. Requests are executed one at a time
and in the order in which they were put in. Whatever they do, the supervisor goes through a sound
run.
-/
namespace Overseer.Supervisor

/-- What waits in the queue. What a launch comes to is seen when it is made. -/
inductive Request where
  | start
  | stop (timeout : Option Duration)
  | exited (pid : UInt32) (code : Int32)
  | escalate (pid : UInt32)
  deriving DecidableEq, Repr

namespace Request

def operation (launched : Except SystemError UInt32) : Request → Operation
  | .start => .start launched
  | .stop timeout => .stop timeout
  | .exited pid code => .exited pid code
  | .escalate pid => .escalate pid

def reported? : Request → Option UInt32
  | .exited pid _ => some pid
  | _ => none

def escalated? : Request → Option UInt32
  | .escalate pid => some pid
  | _ => none

@[simp] theorem reported?_operation (launched : Except SystemError UInt32) (r : Request) :
    (r.operation launched).reported? = r.reported? := by
  cases r <;> rfl

@[simp] theorem escalated?_operation (launched : Except SystemError UInt32) (r : Request) :
    (r.operation launched).escalated? = r.escalated? := by
  cases r <;> rfl

end Request

namespace Stopping

def escalationsOf (effects : List Effect) : List UInt32 :=
  effects.filterMap fun
    | .escalate pid => some pid
    | .warn _ => none

/-- A stop escalates at most once, against its own process, and is finished then. -/
theorem step_cases (s : Stopping) (now : Nat) (e : Event) :
    (s.step now e).1.stop = s.stop ∧
      (escalationsOf (s.step now e).2 = [] ∨
        escalationsOf (s.step now e).2 = [s.stop.pid] ∧ (s.step now e).1.isFinished = true) := by
  unfold step
  repeat' split
  all_goals simp [escalationsOf, isFinished]

end Stopping

structure Traffic where
  run : Run
  queue : List Request := []
  /-- The operation that was taken from the queue and is not done. A process that it launches is
  there already. -/
  executing : Option Operation := none
  /-- Processes that were launched and whose reapers have not reported yet. -/
  reapers : List UInt32 := []
  stops : List Stopping := []
  now : Nat := 0
  /-- What was done so far, in order. -/
  log : List Deed := []

namespace Traffic

inductive Event where
  | start
  | stop (timeout : Option Duration)
  /-- The exit code of a process is collected. -/
  | collect (pid : UInt32)
  /-- The reaper of a process reports its exit. -/
  | report (pid : UInt32) (code : Int32)
  /-- Something happens to a cooperative stop. It may miss whatever it waits for. -/
  | tell (index : Nat) (e : Stopping.Event)
  | elapse (ms : Nat)
  /-- The next operation is taken. If it launches a process, this is what the launch comes to. -/
  | take (launched : Except SystemError UInt32)
  | complete

def fresh (settings : Settings) : Traffic := { run := Run.fresh settings }

abbrev supervisor (t : Traffic) : Supervisor := t.run.supervisor

def put (t : Traffic) (r : Request) : Traffic := { t with queue := t.queue ++ [r] }

def tell (t : Traffic) (index : Nat) (e : Stopping.Event) : Traffic :=
  match t.stops[index]? with
  | none => t
  | some s =>
    let (s, effects) := s.step t.now e
    { t with
      stops := if s.isFinished then t.stops.eraseIdx index else t.stops.set index s
      queue := t.queue ++ (Stopping.escalationsOf effects).map .escalate }

def take (t : Traffic) (launched : Except SystemError UInt32) : Traffic :=
  match t.queue with
  | [] => t
  | r :: rest =>
    let op := r.operation launched
    { t with
      queue := rest
      executing := some op
      reapers := t.reapers ++ (t.supervisor.launches? op).toList }

def complete (t : Traffic) : Traffic :=
  match t.executing with
  | none => t
  | some op =>
    let d : Deed := ⟨t.supervisor, op⟩
    { t with
      run := t.run.advance (.perform op)
      executing := none
      stops := t.stops ++ d.begun.map fun stop => ⟨stop, t.now, .asking⟩
      log := t.log ++ [d] }

def advance (t : Traffic) : Event → Traffic
  | .start => t.put .start
  | .stop timeout => t.put (.stop timeout)
  | .collect pid => { t with run := t.run.advance (.collect pid) }
  | .report pid code => { t with reapers := t.reapers.erase pid }.put (.exited pid code)
  | .tell index e => t.tell index e
  | .elapse ms => { t with now := t.now + ms }
  | .take launched => t.take launched
  | .complete => t.complete

/-- Every reaper reports once, and one operation is executing at a time. -/
def admits (t : Traffic) : Event → Bool
  | .report pid _ => t.reapers.contains pid
  | .take _ => t.executing.isNone && !t.queue.isEmpty
  | .complete => t.executing.isSome
  | _ => true

def execute (t : Traffic) : List Event → Traffic
  | [] => t
  | e :: events => (t.advance e).execute events

def admitsAll (t : Traffic) : List Event → Bool
  | [] => true
  | e :: events => t.admits e && (t.advance e).admitsAll events

/-- What every step keeps holds after every run. -/
theorem execute_induction {motive : Traffic → Prop} {t : Traffic} (start : motive t)
    (step : ∀ (t : Traffic) (e : Event), motive t → t.admits e = true → motive (t.advance e))
    (events : List Event) (admitted : t.admitsAll events = true) : motive (t.execute events) := by
  induction events generalizing t with
  | nil => exact start
  | cons e events ih =>
    obtain ⟨first, later⟩ : t.admits e = true ∧ (t.advance e).admitsAll events = true := by
      simpa [admitsAll] using admitted
    exact ih (step t e start first) later

def launching (t : Traffic) : List UInt32 :=
  (t.executing.bind t.supervisor.launches?).toList

/-- The processes whose exits are to be reported, or whose reports are to be executed. -/
def outstanding (t : Traffic) : List UInt32 :=
  t.reapers ++ t.queue.filterMap Request.reported? ++
    (t.executing.bind Operation.reported?).toList

/-- The processes against which a stop may yet escalate, or whose escalations are to be executed. -/
def pursued (t : Traffic) : List UInt32 :=
  t.stops.map (fun s => s.stop.pid) ++ t.queue.filterMap Request.escalated? ++
    (t.executing.bind Operation.escalated?).toList

@[simp] theorem launches?_collect (s : Supervisor) (pid : UInt32) :
    (s.collect pid).launches? = s.launches? := by
  funext op
  cases op with
  | start launched => cases launched <;> rfl
  | _ => rfl

/-- A step of anybody but the drain loop. Reports and escalations move on, and none is added. -/
structure Aside (t u : Traffic) : Prop where
  run : u.run = t.run ∨ ∃ pid, u.run = t.run.advance (.collect pid)
  executing : u.executing = t.executing
  log : u.log = t.log
  outstanding : u.outstanding.Perm t.outstanding
  pursued : ∀ pid, u.pursued.count pid ≤ t.pursued.count pid

theorem aside_put (t : Traffic) {r : Request} (noReport : r.reported? = none)
    (noEscalation : r.escalated? = none) : t.Aside (t.put r) where
  run := .inl rfl
  executing := rfl
  log := rfl
  outstanding := by simp [outstanding, put, noReport]
  pursued := by simp [pursued, put, noEscalation]

theorem aside_report {t : Traffic} {pid : UInt32} (member : pid ∈ t.reapers) (code : Int32) :
    t.Aside ({ t with reapers := t.reapers.erase pid }.put (.exited pid code)) where
  run := .inl rfl
  executing := rfl
  log := rfl
  outstanding := by
    have moved : (pid :: t.reapers.erase pid).Perm t.reapers := (List.perm_cons_erase member).symm
    simp only [outstanding, put, List.filterMap_append, List.filterMap_cons, List.filterMap_nil,
      Request.reported?]
    refine List.Perm.append_right _ ?_
    refine .trans ?_ (moved.append_right _)
    rw [← List.append_assoc]
    exact List.perm_append_singleton pid _
  pursued := by simp [pursued, put, List.filterMap_cons, Request.escalated?]

theorem filterMap_reported?_escalate (pids : List UInt32) :
    (pids.map Request.escalate).filterMap Request.reported? = [] := by
  simp [List.filterMap_eq_nil_iff, Request.reported?]

theorem filterMap_escalated?_escalate (pids : List UInt32) :
    (pids.map Request.escalate).filterMap Request.escalated? = pids := by
  simp [List.filterMap_map, Function.comp_def, Request.escalated?]

theorem pids_set {stops : List Stopping} {index : Nat} (bound : index < stops.length)
    {s : Stopping} (same : s.stop = stops[index].stop) :
    (stops.set index s).map (fun s => s.stop.pid) = stops.map fun s => s.stop.pid := by
  rw [List.map_set, same, ← List.getElem_map (fun s : Stopping => s.stop.pid) (h := by simpa)]
  exact List.set_getElem_self _

theorem pids_eraseIdx {stops : List Stopping} {index : Nat} (bound : index < stops.length) :
    (stops[index].stop.pid :: (stops.eraseIdx index).map fun s => s.stop.pid).Perm
      (stops.map fun s => s.stop.pid) :=
  (List.getElem_cons_eraseIdx_perm bound).map fun s : Stopping => s.stop.pid

/-- A stop that escalates is over, and until then it is after the same process. -/
theorem aside_tell (t : Traffic) (index : Nat) (e : Stopping.Event) : t.Aside (t.tell index e) := by
  unfold tell
  split
  next => exact ⟨.inl rfl, rfl, rfl, .refl _, fun _ => Nat.le_refl _⟩
  next s found =>
    obtain ⟨bound, rfl⟩ := List.getElem?_eq_some_iff.mp found
    obtain ⟨same, escalates⟩ := t.stops[index].step_cases t.now e
    refine ⟨.inl rfl, rfl, rfl, ?_, fun pid => ?_⟩
    · simp only [outstanding, List.filterMap_append, filterMap_reported?_escalate, List.append_nil]
      exact .refl _
    · simp only [pursued, List.filterMap_append, filterMap_escalated?_escalate, List.count_append]
      cases finished : (t.stops[index].step t.now e).1.isFinished with
      | false =>
        have none : Stopping.escalationsOf (t.stops[index].step t.now e).2 = [] := by
          simpa [finished] using escalates
        simp [none, pids_set bound same]
      | true =>
        have left := (pids_eraseIdx bound).count_eq pid
        have most : (Stopping.escalationsOf (t.stops[index].step t.now e).2).count pid ≤
            [t.stops[index].stop.pid].count pid := by
          rcases escalates with none | ⟨one, _⟩
          · simp [none]
          · simp [one]
        rw [← List.singleton_append, List.count_append] at left
        simp only [if_true]
        omega

/-- A step is one aside, or the drain loop takes an operation, or it completes the one at hand. -/
theorem advance_cases {t : Traffic} {e : Event} (admitted : t.admits e = true) :
    t.Aside (t.advance e) ∨
      (∃ r rest launched, e = .take launched ∧ t.executing = none ∧ t.queue = r :: rest) ∨
      ∃ op, e = .complete ∧ t.executing = some op := by
  cases e with
  | start => exact .inl (t.aside_put rfl rfl)
  | stop timeout => exact .inl (t.aside_put rfl rfl)
  | collect pid => exact .inl ⟨.inr ⟨pid, rfl⟩, rfl, rfl, .refl _, fun _ => Nat.le_refl _⟩
  | report pid code => exact .inl (aside_report (by simpa [admits] using admitted) code)
  | tell index e => exact .inl (t.aside_tell index e)
  | elapse ms => exact .inl ⟨.inl rfl, rfl, rfl, .refl _, fun _ => Nat.le_refl _⟩
  | take launched =>
    obtain ⟨free, some⟩ : t.executing = none ∧ t.queue ≠ [] := by
      simpa [admits] using admitted
    obtain ⟨r, rest, queue⟩ := List.exists_cons_of_ne_nil some
    exact .inr (.inl ⟨r, rest, launched, rfl, free, queue⟩)
  | complete => exact .inr (.inr ((Option.isSome_iff_exists.mp admitted).imp fun op => .intro rfl))

theorem filterMap_cons_toList {α β : Type} (f : α → Option β) (a : α) (rest : List α) :
    (a :: rest).filterMap f = (f a).toList ++ rest.filterMap f := by
  rw [List.filterMap_cons]
  cases f a <;> rfl

theorem take_eq {t : Traffic} {r : Request} {rest : List Request} (queue : t.queue = r :: rest)
    (launched : Except SystemError UInt32) :
    t.take launched =
      { t with
        queue := rest
        executing := some (r.operation launched)
        reapers := t.reapers ++ (t.supervisor.launches? (r.operation launched)).toList } := by
  simp only [take, queue]

theorem complete_eq {t : Traffic} {op : Operation} (busy : t.executing = some op) :
    t.complete =
      { t with
        run := t.run.advance (.perform op)
        executing := none
        stops := t.stops ++
          (Deed.begun ⟨t.supervisor, op⟩).map fun stop => ⟨stop, t.now, .asking⟩
        log := t.log ++ [⟨t.supervisor, op⟩] } := by
  simp only [complete, busy]

theorem pursued_take {t : Traffic} (free : t.executing = none) {r : Request} {rest : List Request}
    (queue : t.queue = r :: rest) (launched : Except SystemError UInt32) :
    (t.take launched).pursued.Perm t.pursued := by
  rw [take_eq queue, List.perm_iff_count]
  intro pid
  simp only [pursued, free, queue, filterMap_cons_toList, Option.bind_none, Option.bind_some,
    Option.toList_none, List.append_nil, List.count_append, Request.escalated?_operation]
  omega

/-- An escalation that was executed is over, and the stops that begin may escalate. -/
theorem pursued_complete {t : Traffic} {op : Operation} (busy : t.executing = some op) :
    (t.complete.pursued ++ op.escalated?.toList).Perm
      (t.pursued ++ (Deed.begun ⟨t.supervisor, op⟩).map fun stop => stop.pid) := by
  rw [complete_eq busy, List.perm_iff_count]
  intro pid
  simp only [pursued, busy, List.map_append, List.map_map, Function.comp_def, Option.bind_none,
    Option.bind_some, Option.toList_none, List.append_nil, List.count_append]
  omega

/-- Reports are outstanding of the exits that the run awaits, and of the process that is being
launched. -/
structure Sound (t : Traffic) : Prop where
  run : t.run.Sound
  outstanding : t.outstanding.Perm (t.run.unreported ++ t.launching)
  deeds : ∀ d ∈ t.log, d.Sound

theorem sound_fresh (settings : Settings) : (fresh settings).Sound :=
  ⟨Run.sound_fresh settings, .refl _, by simp [fresh]⟩

theorem Aside.launching {t u : Traffic} (aside : t.Aside u) : u.launching = t.launching := by
  rcases aside.run with same | ⟨pid, collected⟩
  · simp only [Traffic.launching, Traffic.supervisor, same, aside.executing]
  · simp only [Traffic.launching, Traffic.supervisor, collected, aside.executing, Run.advance,
      launches?_collect]

theorem Aside.supervisor {t u : Traffic} (aside : t.Aside u) :
    u.supervisor.state = t.supervisor.state ∧ u.supervisor.info = t.supervisor.info ∧
      u.supervisor.killed = t.supervisor.killed := by
  rcases aside.run with same | ⟨pid, collected⟩
  · rw [Traffic.supervisor, same]
    exact ⟨rfl, rfl, rfl⟩
  · rw [Traffic.supervisor, collected]
    exact ⟨rfl, rfl, rfl⟩

theorem Sound.aside {t u : Traffic} (sound : t.Sound) (aside : t.Aside u) : u.Sound := by
  have run : u.run.Sound ∧ u.run.unreported = t.run.unreported := by
    rcases aside.run with same | ⟨pid, collected⟩
    · rw [same]
      exact ⟨sound.run, rfl⟩
    · rw [collected]
      exact ⟨sound.run.advance (.collect pid) rfl, rfl⟩
  refine ⟨run.1, ?_, aside.log ▸ sound.deeds⟩
  rw [run.2, aside.launching]
  exact aside.outstanding.trans sound.outstanding

/-- A process that is launched is outstanding from then on. -/
theorem Sound.take {t : Traffic} (sound : t.Sound) (free : t.executing = none) {r : Request}
    {rest : List Request} (queue : t.queue = r :: rest) (launched : Except SystemError UInt32) :
    (t.take launched).Sound := by
  have outstanding := sound.outstanding
  rw [take_eq queue]
  refine ⟨sound.run, ?_, sound.deeds⟩
  rw [List.perm_iff_count] at outstanding ⊢
  intro pid
  specialize outstanding pid
  simp only [Traffic.outstanding, launching, Traffic.supervisor, free, queue,
    filterMap_cons_toList, Option.bind_none, Option.bind_some, Option.toList_none,
    List.append_nil, List.count_append, Request.reported?_operation] at outstanding ⊢
  omega

/-- What an operation reports is not awaited any more, and what it launches is awaited. -/
theorem unreportedAfter_perm {r : Run} {op : Operation}
    (awaited : ∀ pid, op.reported? = some pid → pid ∈ r.unreported) :
    (r.unreportedAfter op ++ op.reported?.toList).Perm
      (r.unreported ++ (r.supervisor.launches? op).toList) := by
  cases op with
  | start launched =>
    cases launched with
    | ok pid =>
      simp only [Run.unreportedAfter, Operation.reported?, launches?]
      split <;> simp
    | error cause => exact .refl _
  | stop timeout => exact .refl _
  | exited pid code =>
    have moved := List.perm_cons_erase (awaited pid rfl)
    simpa [Run.unreportedAfter, Operation.reported?, launches?] using
      (List.perm_append_singleton pid _).trans moved.symm
  | escalate pid => exact .refl _

/-- A report that is being executed is awaited. -/
theorem Sound.awaited {t : Traffic} (sound : t.Sound) {op : Operation}
    (busy : t.executing = some op) {pid : UInt32} (report : op.reported? = some pid) :
    pid ∈ t.run.unreported := by
  have idle : t.launching = [] := by
    cases op with
    | exited => simp [launching, busy, launches?]
    | _ => simp [Operation.reported?] at report
  have member : pid ∈ t.outstanding := by simp [Traffic.outstanding, busy, report]
  simpa [idle] using sound.outstanding.subset member

theorem Sound.deed {t : Traffic} (sound : t.Sound) {op : Operation}
    (busy : t.executing = some op) : (⟨t.supervisor, op⟩ : Deed).Sound := by
  refine ⟨sound.run.coherent, ?_⟩
  rintro pid code rfl
  obtain ⟨live, info, _⟩ := sound.run.found (sound.awaited busy rfl)
  exact ⟨live, info⟩

theorem Sound.complete {t : Traffic} (sound : t.Sound) {op : Operation}
    (busy : t.executing = some op) : t.complete.Sound := by
  have admitted : t.run.admits (.perform op) = true := by
    cases op with
    | exited pid code => simpa [Run.admits] using sound.awaited busy rfl
    | _ => rfl
  have outstanding := sound.outstanding
  have after := unreportedAfter_perm fun _ report => sound.awaited busy report
  rw [complete_eq busy]
  refine ⟨sound.run.advance _ admitted, ?_, ?_⟩
  · rw [List.perm_iff_count] at outstanding after ⊢
    intro pid
    specialize outstanding pid
    specialize after pid
    simp only [Traffic.outstanding, launching, Traffic.supervisor, busy, Run.advance,
      Option.bind_none, Option.bind_some, Option.toList_none, List.append_nil,
      List.count_append] at outstanding after ⊢
    omega
  · intro d member
    rcases List.mem_append.mp member with old | new
    · exact sound.deeds d old
    · rw [List.mem_singleton.mp new]
      exact sound.deed busy

theorem Sound.advance {t : Traffic} (sound : t.Sound) (e : Event) (admitted : t.admits e = true) :
    (t.advance e).Sound := by
  rcases advance_cases admitted with aside | ⟨r, rest, launched, rfl, free, queue⟩ | ⟨op, rfl, busy⟩
  · exact sound.aside aside
  · exact sound.take free queue launched
  · exact sound.complete busy

theorem sound_execute (settings : Settings) {events : List Event}
    (admitted : (fresh settings).admitsAll events = true) :
    ((fresh settings).execute events).Sound :=
  execute_induction (sound_fresh settings) (fun _ e sound => sound.advance e) events admitted

end Traffic

end Overseer.Supervisor
