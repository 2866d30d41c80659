import Mathlib.Algebra.Group.Nat.Defs
import Mathlib.Logic.Relation
import Overseer.Watcher

/-!
A watch from its beginning on: the call that makes the watcher, the task that it may leave behind,
its owner, who may drop it, and the processes of the system, which come and go meanwhile. The task
is polled again and again, and each poll looks once whether the process that was found has ended. A
drop keeps the task from being polled again, and does not end a poll that is under way. All of this
interleaves in any way.
-/
namespace Overseer

namespace Processes

def launch (processes : Processes) (pid : UInt32) : Processes :=
  { processes with living := pid :: processes.living }

variable {processes : Processes} {pid : UInt32}

theorem isProcessId_eq_false_iff : isProcessId pid = false ↔ pid = 0 ∨ 2 ^ 31 - 1 < pid.toNat := by
  rw [← UInt32.toNat_inj, isProcessId, Bool.and_eq_false_iff, decide_eq_false_iff_not,
    decide_eq_false_iff_not, UInt32.lt_iff_toNat_lt, UInt32.lt_iff_toNat_lt]
  simp only [UInt32.toNat_zero, UInt32.reduceToNat]
  omega

/-- An id that names no process belongs to none. -/
theorem presence_of_not_isProcessId (never : isProcessId pid = false) :
    processes.presence pid = .absent := by
  simp [presence, never]

theorem presence_eq_alive_iff :
    processes.presence pid = .alive ↔ isProcessId pid = true ∧ pid ∈ processes.living := by
  unfold presence
  repeat' split
  all_goals simp_all

theorem presence_launch (alive : processes.presence pid = .alive) (other : UInt32) :
    (processes.launch other).presence pid = .alive := by
  rw [presence_eq_alive_iff] at alive ⊢
  exact ⟨alive.1, List.mem_cons_of_mem other alive.2⟩

theorem presence_kill (alive : processes.presence pid = .alive) {other : UInt32}
    (different : other ≠ pid) : (processes.kill other).presence pid = .alive := by
  rw [presence_eq_alive_iff] at alive ⊢
  unfold kill
  split
  · exact ⟨alive.1, List.mem_filter.mpr ⟨alive.2, by simpa using different.symm⟩⟩
  · exact alive

theorem presence_reap (alive : processes.presence pid = .alive) (other : UInt32) :
    (processes.reap other).presence pid = .alive := by
  rw [presence_eq_alive_iff] at alive ⊢
  exact alive

end Processes

namespace Watcher

def callsOf (effects : List Effect) : List UInt32 :=
  effects.filterMap fun
    | .call pid => some pid
    | .warn _ => none

structure Watch where
  pid : UInt32
  processes : Processes
  sight : Option Lookup := none
  /-- The process that was found has ended. -/
  ended : Bool := false
  /-- Whether it was gone when it was checked. -/
  checked : Option Bool := none
  watcher : Option Watcher := none
  /-- The task is being polled. -/
  polling : Bool := false
  /-- The wait of the task is over. -/
  awoken : Bool := false
  returned : Bool := false
  dropped : Bool := false
  /-- What was decided on and is still to be carried out. -/
  due : List Effect := []
  done : List Effect := []

namespace Watch

inductive Event where
  | launch (pid : UInt32)
  | exit (pid : UInt32)
  | collect (pid : UInt32)
  | lookUp (l : Lookup)
  | check
  /-- Carries out the next thing that is due. -/
  | carry
  /-- Gives the watcher to its owner. -/
  | handOver
  | poll
  /-- The poll finds that the process has not ended, and is over. -/
  | pend
  /-- The poll finds that the process has ended. -/
  | awaken
  | resume
  | drop

variable (s : Watch)

def become (w : Watcher × List Effect) : Watch :=
  { s with watcher := some w.1, due := s.due ++ w.2 }

def goOn (step : Watcher → Watcher × List Effect) : Watch :=
  match s.watcher with
  | none => s
  | some w => s.become (step w)

def abandon : Watch :=
  { s with dropped := true, watcher := if s.polling then s.watcher else s.watcher.map Watcher.drop }

/-- A poll that is over is the last one if the watcher was dropped. -/
def pend : Watch :=
  { s with polling := false, watcher := if s.dropped then s.watcher.map Watcher.drop else s.watcher }

def advance : Event → Watch
  | .launch pid => { s with processes := s.processes.launch pid }
  | .exit pid =>
    { s with
      processes := s.processes.kill pid
      ended := s.ended || s.sight = some .found && pid = s.pid }
  | .collect pid => { s with processes := s.processes.reap pid }
  | .lookUp l =>
    { s.become (Watcher.lookUp s.pid l) with
      sight := some l
      ended := l = .found && s.processes.presence s.pid = .ended }
  | .check => { s.goOn (·.check s.ended) with checked := some s.ended }
  | .carry => { s with done := s.done ++ s.due.take 1, due := s.due.drop 1 }
  | .handOver => { s with returned := true }
  | .poll => { s with polling := true }
  | .pend => s.pend
  | .awaken => { s with awoken := true }
  | .resume => s.goOn Watcher.wake
  | .drop => s.abandon

def isAt (phase : Phase) : Bool := s.watcher.any fun w => w.phase = phase

/-- An id is given to one process at a time. What is found by a look-up is there, and what is
missing is not; only an id that may name a process can fail to be observed. -/
def admits : Event → Bool
  | .launch pid => isProcessId pid && s.processes.presence pid = .absent
  | .exit pid => s.processes.living.contains pid
  | .collect pid => s.processes.uncollected.contains pid
  | .lookUp l =>
    s.watcher.isNone &&
      match l with
      | .found => s.processes.presence s.pid ≠ .absent
      | .missing => s.processes.presence s.pid = .absent
      | .unobservable _ => isProcessId s.pid
  | .check => s.isAt .checking
  | .carry => !s.due.isEmpty
  | .handOver =>
    !s.returned && (s.isAt .waiting || s.isAt .finished && (s.due.isEmpty || s.awoken))
  | .poll => s.isAt .waiting && !s.polling
  | .pend => s.isAt .waiting && s.polling && !s.ended
  | .awaken => s.isAt .waiting && s.polling && s.ended && !s.awoken
  | .resume => s.isAt .waiting && s.awoken
  | .drop => s.returned && !s.dropped

def execute (s : Watch) : List Event → Watch
  | [] => s
  | e :: events => (s.advance e).execute events

def admitsAll (s : Watch) : List Event → Bool
  | [] => true
  | e :: events => s.admits e && (s.advance e).admitsAll events

def opening (processes : Processes) (pid : UInt32) : Watch := { pid, processes }

/-- The calls that were made. -/
def calls : List UInt32 := callsOf s.done

/-- The calls that were made and those that are due since the callback was taken. -/
def taken : List UInt32 := callsOf (s.done ++ s.due)

/-- Whether the callback was taken, as the watcher tells. -/
def hasFired : Bool := s.watcher.any Watcher.fired

def isGone : Bool :=
  match s.sight with
  | none => s.processes.presence s.pid ≠ .alive
  | some .found => s.ended
  | some _ => true

def Event.isOwn : Event → Bool
  | .lookUp _ | .check | .carry | .handOver | .poll | .pend | .awaken | .resume => true
  | _ => false

variable {s}

/-- How far a watch may have come. -/
inductive Stage (s : Watch) : Prop where
  | unseen (watcher : s.watcher = none) (sight : s.sight = none) (checked : s.checked = none)
      (untaken : s.taken = []) (asleep : s.awoken = false) (returned : s.returned = false)
      (kept : s.dropped = false)
  | checking (watcher : s.watcher = some ⟨s.pid, .checking, false⟩) (sight : s.sight = some .found)
      (checked : s.checked = none) (untaken : s.taken = []) (asleep : s.awoken = false)
      (returned : s.returned = false) (kept : s.dropped = false)
  /-- The callback was taken by the call. -/
  | atOnce (watcher : s.watcher = some ⟨s.pid, .finished, true⟩) (looked : s.sight ≠ none)
      (found : s.sight = some .found → s.ended = true ∧ s.checked = some true)
      (taken : s.taken = [s.pid]) (asleep : s.awoken = false)
      (returned : s.returned = true → s.due = [])
  | waiting (watcher : s.watcher = some ⟨s.pid, .waiting, false⟩) (sight : s.sight = some .found)
      (checked : s.checked = some false) (untaken : s.taken = [])
      (awoken : s.awoken = true → s.ended = true ∧ s.polling = true)
      (kept : s.dropped = true → s.polling = true)
  /-- The task was ended by a drop. -/
  | abandoned (watcher : s.watcher = some ⟨s.pid, .finished, false⟩)
      (sight : s.sight = some .found) (checked : s.checked = some false) (untaken : s.taken = [])
      (asleep : s.awoken = false) (dropped : s.dropped = true) (idle : s.polling = false)
  /-- The callback was taken by the task. -/
  | woken (watcher : s.watcher = some ⟨s.pid, .finished, true⟩) (sight : s.sight = some .found)
      (checked : s.checked = some false) (taken : s.taken = [s.pid]) (awoken : s.awoken = true)
      (ended : s.ended = true)

/-- A process that was found and has not ended is alive, and an id that never names a process is
missing. -/
structure Sound (s : Watch) : Prop where
  stage : s.Stage
  alive : s.sight = some .found → s.ended = false → s.processes.presence s.pid = .alive
  named : ∀ l, s.sight = some l → l = .missing ∨ isProcessId s.pid = true

theorem sound_opening (processes : Processes) (pid : UInt32) : (opening processes pid).Sound where
  stage := .unseen rfl rfl rfl rfl rfl rfl rfl
  alive found := by cases found
  named _ seen := by cases seen

/-- What processes do, and what is carried out of what is due, is no matter of the watcher. -/
theorem Stage.around (stage : s.Stage) {processes : Processes} {ended : Bool}
    {due done : List Effect} (later : s.ended = true → ended = true)
    (same : callsOf (done ++ due) = s.taken) (left : s.due = [] → due = []) :
    Stage { s with processes, ended, due, done } := by
  cases stage with
  | unseen watcher sight checked untaken asleep returned kept =>
    exact .unseen watcher sight checked (same.trans untaken) asleep returned kept
  | checking watcher sight checked untaken asleep returned kept =>
    exact .checking watcher sight checked (same.trans untaken) asleep returned kept
  | atOnce watcher looked found taken asleep returned =>
    exact .atOnce watcher looked (fun seen => (found seen).imp_left later) (same.trans taken) asleep
      fun back => left (returned back)
  | waiting watcher sight checked untaken awoken kept =>
    exact .waiting watcher sight checked (same.trans untaken)
      (fun up => (awoken up).imp_left later) kept
  | abandoned watcher sight checked untaken asleep dropped idle =>
    exact .abandoned watcher sight checked (same.trans untaken) asleep dropped idle
  | woken watcher sight checked taken awoken ended =>
    exact .woken watcher sight checked (same.trans taken) awoken (later ended)

theorem taken_carry (s : Watch) : (s.advance .carry).taken = s.taken := by
  simp only [taken, advance, List.append_assoc, List.take_append_drop]

theorem taken_become (s : Watch) (w : Watcher × List Effect) :
    (s.become w).taken = s.taken ++ callsOf w.2 := by
  simp [taken, become, callsOf]

/-- The look-up finds the process, or the callback is taken. -/
theorem Stage.lookUp (stage : s.Stage) (unseen : s.watcher = none) (l : Lookup) (ended : Bool) :
    Stage { s.become (Watcher.lookUp s.pid l) with sight := some l, ended } := by
  have appended := s.taken_become (Watcher.lookUp s.pid l)
  cases stage with
  | unseen _ _ checked untaken asleep returned kept =>
    rw [untaken] at appended
    cases l with
    | found => exact .checking rfl rfl checked appended asleep returned kept
    | missing => exact .atOnce rfl (by simp) (by simp) appended asleep (by simp [become, returned])
    | unobservable cause =>
      exact .atOnce rfl (by simp) (by simp) appended asleep (by simp [become, returned])
  | checking watcher | atOnce watcher | waiting watcher | abandoned watcher | woken watcher =>
    rw [unseen] at watcher
    cases watcher

theorem isAt_iff {phase : Phase} :
    s.isAt phase = true ↔ ∃ w, s.watcher = some w ∧ w.phase = phase := by
  simp [isAt, Option.any_eq_true]

theorem goOn_of_watcher {w : Watcher} (watcher : s.watcher = some w)
    (step : Watcher → Watcher × List Effect) : s.goOn step = s.become (step w) := by
  simp only [goOn, watcher]

/-- Going on with the watcher is no matter of anything else. -/
theorem goOn_eq (s : Watch) (step : Watcher → Watcher × List Effect) :
    s.goOn step = { s with watcher := (s.goOn step).watcher, due := (s.goOn step).due } := by
  unfold goOn
  split <;> rfl

/-- The process was gone when it was checked, and the callback is taken, or a task waits. -/
theorem Stage.check (stage : s.Stage) (here : s.isAt .checking = true) :
    Stage { s.goOn (·.check s.ended) with checked := some s.ended } := by
  cases stage with
  | checking watcher sight checked untaken asleep returned kept =>
    rw [goOn_of_watcher watcher]
    have appended := s.taken_become (Watcher.check ⟨s.pid, .checking, false⟩ s.ended)
    rw [untaken] at appended
    cases ended : s.ended with
    | false =>
      rw [ended] at appended
      exact .waiting rfl sight rfl appended (by simp [become, asleep]) (by simp [become, kept])
    | true =>
      rw [ended] at appended
      exact .atOnce rfl (by simp [become, sight]) (fun _ => ⟨ended, rfl⟩) appended asleep
        (by simp [become, returned])
  | unseen watcher | atOnce watcher | waiting watcher | abandoned watcher | woken watcher =>
    simp [isAt, watcher] at here

theorem Stage.handOver (stage : s.Stage) (admitted : s.admits .handOver = true) :
    (s.advance .handOver).Stage := by
  cases stage with
  | unseen watcher => simp [admits, isAt, watcher] at admitted
  | checking watcher => simp [admits, isAt, watcher] at admitted
  | atOnce watcher looked found taken asleep returned =>
    have none : s.due = [] := by
      simp only [admits, isAt, watcher, asleep] at admitted
      exact (show s.returned = false ∧ s.due = [] by simpa using admitted).2
    exact .atOnce watcher looked found taken asleep fun _ => none
  | waiting watcher sight checked untaken awoken kept =>
    exact .waiting watcher sight checked untaken awoken kept
  | abandoned watcher sight checked untaken asleep dropped idle =>
    exact .abandoned watcher sight checked untaken asleep dropped idle
  | woken watcher sight checked taken awoken ended =>
    exact .woken watcher sight checked taken awoken ended

theorem Stage.poll (stage : s.Stage) (here : s.isAt .waiting = true) : (s.advance .poll).Stage := by
  cases stage with
  | waiting watcher sight checked untaken awoken kept =>
    exact .waiting watcher sight checked untaken (fun up => ⟨(awoken up).1, rfl⟩) fun _ => rfl
  | unseen watcher | checking watcher | atOnce watcher | abandoned watcher | woken watcher =>
    simp [isAt, watcher] at here

/-- A poll that finds the process there is the last one if the watcher was dropped meanwhile. -/
theorem Stage.pend (stage : s.Stage) (here : s.isAt .waiting = true) (there : s.ended = false) :
    s.pend.Stage := by
  cases stage with
  | waiting watcher sight checked untaken awoken kept =>
    have asleep : s.awoken = false := by
      cases up : s.awoken with
      | false => rfl
      | true => simp [there] at awoken; exact absurd up (by simp [awoken])
    cases dropped : s.dropped with
    | true =>
      exact .abandoned (by simp [Watch.pend, dropped, watcher, Watcher.drop]) sight checked untaken
        asleep dropped rfl
    | false =>
      exact .waiting (by simpa [Watch.pend, dropped] using watcher) sight checked untaken
        (by simp [Watch.pend, asleep]) (by simp [Watch.pend, dropped])
  | unseen watcher | checking watcher | atOnce watcher | abandoned watcher | woken watcher =>
    simp [isAt, watcher] at here

theorem Stage.awaken (stage : s.Stage) (here : s.isAt .waiting = true) (polling : s.polling = true)
    (ended : s.ended = true) : (s.advance .awaken).Stage := by
  cases stage with
  | waiting watcher sight checked untaken awoken kept =>
    exact .waiting watcher sight checked untaken (fun _ => ⟨ended, polling⟩) kept
  | unseen watcher | checking watcher | atOnce watcher | abandoned watcher | woken watcher =>
    simp [isAt, watcher] at here

theorem Stage.resume (stage : s.Stage) (here : s.isAt .waiting = true) (up : s.awoken = true) :
    (s.advance .resume).Stage := by
  cases stage with
  | waiting watcher sight checked untaken awoken kept =>
    have appended := s.taken_become (Watcher.wake ⟨s.pid, .waiting, false⟩)
    rw [untaken] at appended
    rw [advance, goOn_of_watcher watcher]
    exact .woken rfl sight checked appended up (awoken up).1
  | unseen watcher | checking watcher | atOnce watcher | abandoned watcher | woken watcher =>
    simp [isAt, watcher] at here

/-- A drop comes too late if the callback was taken, and leaves alone a poll that is under way. -/
theorem Stage.drop (stage : s.Stage) (returned : s.returned = true) : s.abandon.Stage := by
  cases stage with
  | unseen _ _ _ _ _ early => simp [returned] at early
  | checking _ _ _ _ _ early => simp [returned] at early
  | atOnce watcher looked found taken asleep done =>
    exact .atOnce (by simp [abandon, watcher, Watcher.drop]) looked found taken asleep done
  | waiting watcher sight checked untaken awoken kept =>
    cases polling : s.polling with
    | true =>
      exact .waiting (by simpa [abandon, polling] using watcher) sight checked untaken awoken
        fun _ => polling
    | false =>
      have asleep : s.awoken = false := by simpa [polling] using awoken
      exact .abandoned (by simp [abandon, polling, watcher, Watcher.drop]) sight checked untaken
        asleep rfl polling
  | abandoned watcher sight checked untaken asleep _ idle =>
    exact .abandoned (by simp [abandon, idle, watcher, Watcher.drop]) sight checked untaken asleep
      rfl idle
  | woken watcher sight checked taken awoken ended =>
    exact .woken (by simp [abandon, watcher, Watcher.drop]) sight checked taken awoken ended

theorem Sound.goOn (sound : s.Sound) (step : Watcher → Watcher × List Effect)
    {checked : Option Bool} (stage : Stage { s.goOn step with checked }) :
    Sound { s.goOn step with checked } := by
  rw [goOn_eq] at stage ⊢
  exact ⟨stage, sound.alive, sound.named⟩

theorem Sound.lookUp (sound : s.Sound) {l : Lookup} (admitted : s.admits (.lookUp l) = true) :
    (s.advance (.lookUp l)).Sound := by
  obtain ⟨unseen, consistent⟩ := (Bool.and_eq_true _ _).mp admitted
  refine ⟨sound.stage.lookUp (by simpa using unseen) l _, fun found there => ?_, fun _ seen => ?_⟩
  · obtain rfl : l = .found := Option.some.inj found
    simp only [decide_eq_true_eq, decide_true, Bool.true_and, decide_eq_false_iff_not, advance]
      at consistent there
    cases presence : s.processes.presence s.pid with
    | alive => exact presence
    | ended => exact absurd presence there
    | absent => exact absurd presence consistent
  · obtain rfl := Option.some.inj seen
    cases l with
    | missing => exact .inl rfl
    | unobservable => exact .inr consistent
    | found =>
      refine .inr ?_
      cases named : isProcessId s.pid with
      | true => exact named
      | false => simp [Processes.presence_of_not_isProcessId named] at consistent

theorem Sound.advance (sound : s.Sound) (e : Event) (admitted : s.admits e = true) :
    (s.advance e).Sound := by
  have ⟨stage, alive, named⟩ := sound
  cases e with
  | launch pid =>
    exact ⟨stage.around id rfl id,
      fun found there => Processes.presence_launch (alive found there) pid, named⟩
  | exit pid =>
    refine ⟨stage.around (fun ended => by simp [ended]) rfl id, fun found there => ?_, named⟩
    obtain ⟨there, other⟩ : s.ended = false ∧ pid ≠ s.pid := by
      simpa [Watch.advance, show s.sight = some .found from found] using there
    exact Processes.presence_kill (alive found there) other
  | collect pid =>
    exact ⟨stage.around id rfl id,
      fun found there => Processes.presence_reap (alive found there) pid, named⟩
  | lookUp l => exact sound.lookUp admitted
  | check => exact sound.goOn _ (stage.check admitted)
  | carry => exact ⟨stage.around id s.taken_carry fun none => by simp [none], alive, named⟩
  | handOver => exact ⟨stage.handOver admitted, alive, named⟩
  | poll => exact ⟨stage.poll ((Bool.and_eq_true _ _).mp admitted).1, alive, named⟩
  | pend =>
    obtain ⟨⟨here, _⟩, there⟩ : (s.isAt .waiting = true ∧ s.polling = true) ∧ s.ended = false := by
      simpa [admits] using admitted
    exact ⟨stage.pend here there, alive, named⟩
  | awaken =>
    obtain ⟨⟨⟨here, polling⟩, ended⟩, _⟩ :
        ((s.isAt .waiting = true ∧ s.polling = true) ∧ s.ended = true) ∧ s.awoken = false := by
      simpa [admits] using admitted
    exact ⟨stage.awaken here polling ended, alive, named⟩
  | resume =>
    obtain ⟨here, up⟩ := (Bool.and_eq_true _ _).mp admitted
    exact sound.goOn _ (stage.resume here up)
  | drop => exact ⟨stage.drop ((Bool.and_eq_true _ _).mp admitted).1, alive, named⟩

/-- What every step keeps holds after any run. -/
theorem execute_induction {motive : Watch → Prop} (start : motive s)
    (step : ∀ {s : Watch} {e : Event}, motive s → s.admits e = true → motive (s.advance e))
    (events : List Event) (admitted : s.admitsAll events = true) : motive (s.execute events) := by
  induction events generalizing s with
  | nil => exact start
  | cons e events ih =>
    obtain ⟨first, later⟩ : s.admits e = true ∧ (s.advance e).admitsAll events = true := by
      simpa [admitsAll] using admitted
    exact ih (step start first) later

theorem Sound.execute (sound : s.Sound) (events : List Event)
    (admitted : s.admitsAll events = true) : (s.execute events).Sound :=
  execute_induction sound (fun sound admitted => sound.advance _ admitted) events admitted

theorem pid_advance (s : Watch) (e : Event) : (s.advance e).pid = s.pid := by
  cases e with
  | check | resume => rw [advance, goOn_eq]
  | _ => rfl

theorem pid_execute (s : Watch) (events : List Event) : (s.execute events).pid = s.pid := by
  induction events generalizing s with
  | nil => rfl
  | cons e events ih => exact (ih _).trans (s.pid_advance e)

theorem execute_append (s : Watch) (earlier later : List Event) :
    s.execute (earlier ++ later) = (s.execute earlier).execute later := by
  induction earlier generalizing s with
  | nil => rfl
  | cons e earlier ih => exact ih (s.advance e)

theorem admitsAll_append {s : Watch} {earlier later : List Event}
    (admitted : s.admitsAll (earlier ++ later) = true) :
    s.admitsAll earlier = true ∧ (s.execute earlier).admitsAll later = true := by
  induction earlier generalizing s with
  | nil => exact ⟨rfl, admitted⟩
  | cons e earlier ih =>
    obtain ⟨first, rest⟩ :
        s.admits e = true ∧ (s.advance e).admitsAll (earlier ++ later) = true := by
      simpa [admitsAll] using admitted
    obtain ⟨before, after⟩ := ih rest
    exact ⟨by simp [admitsAll, first, before], after⟩

/-- The task is not polled any more, and did not take the callback. -/
structure Abandoned (s : Watch) : Prop where
  watcher : s.watcher = some ⟨s.pid, .finished, false⟩
  untaken : s.taken = []

theorem Abandoned.advance (abandoned : s.Abandoned) {e : Event} (admitted : s.admits e = true) :
    (s.advance e).Abandoned := by
  obtain ⟨watcher, untaken⟩ := abandoned
  cases e with
  | launch | exit | collect | handOver => exact ⟨watcher, untaken⟩
  | carry => exact ⟨watcher, s.taken_carry.trans untaken⟩
  | lookUp | check | poll | pend | awaken | resume => simp [admits, isAt, watcher] at admitted
  | drop => exact ⟨by simp [Watch.advance, abandon, watcher, Watcher.drop], untaken⟩

theorem Abandoned.execute (abandoned : s.Abandoned) (events : List Event)
    (admitted : s.admitsAll events = true) : (s.execute events).Abandoned :=
  execute_induction abandoned (fun abandoned admitted => abandoned.advance admitted) events admitted

/-- The watcher was dropped, and a poll is under way that has not looked yet. -/
structure Lingering (s : Watch) : Prop where
  watcher : s.watcher = some ⟨s.pid, .waiting, false⟩
  untaken : s.taken = []
  polling : s.polling = true
  asleep : s.awoken = false
  dropped : s.dropped = true

/-- What a poll finds is all that is left to happen to a watcher that was dropped. -/
theorem Lingering.advance (lingering : s.Lingering) {e : Event} (admitted : s.admits e = true) :
    e = .awaken ∨ e = .pend ∧ (s.advance e).Abandoned ∨ e ≠ .pend ∧ (s.advance e).Lingering := by
  have ⟨watcher, untaken, polling, asleep, dropped⟩ := lingering
  cases e with
  | launch | exit | collect | handOver =>
    exact .inr (.inr ⟨nofun, watcher, untaken, polling, asleep, dropped⟩)
  | carry =>
    exact .inr (.inr ⟨nofun, watcher, s.taken_carry.trans untaken, polling, asleep, dropped⟩)
  | awaken => exact .inl rfl
  | pend =>
    exact .inr (.inl ⟨rfl, by simp [Watch.advance, Watch.pend, dropped, watcher, Watcher.drop],
      untaken⟩)
  | lookUp | check => simp [admits, isAt, watcher] at admitted
  | poll => simp [admits, polling] at admitted
  | resume => simp [admits, asleep] at admitted
  | drop => simp [admits, dropped] at admitted

/-- The poll under way finds that the process has ended. -/
def FindsEnd (events : List Event) : Prop :=
  ∃ first rest, events = first ++ .awaken :: rest ∧ .pend ∉ first

theorem Lingering.execute (lingering : s.Lingering) (events : List Event)
    (admitted : s.admitsAll events = true) : (s.execute events).taken = [] ∨ FindsEnd events := by
  induction events generalizing s with
  | nil => exact .inl lingering.untaken
  | cons e events ih =>
    obtain ⟨first, later⟩ := (Bool.and_eq_true _ _).mp admitted
    rcases lingering.advance first with rfl | ⟨-, abandoned⟩ | ⟨other, still⟩
    · exact .inr ⟨[], events, rfl, List.not_mem_nil⟩
    · exact .inl (abandoned.execute events later).untaken
    · refine (ih still later).imp_right ?_
      rintro ⟨before, rest, rfl, unseen⟩
      exact ⟨e :: before, rest, rfl, by simpa using ⟨other.symm, unseen⟩⟩

/-- From a drop on that comes before the wait of the task is over, nothing but a poll that is under
way takes the callback. -/
theorem Stage.untaken_of_drop (stage : s.Stage) (returned : s.returned = true)
    (asleep : s.awoken = false) (unfired : s.hasFired = false) {events : List Event}
    (admitted : s.abandon.admitsAll events = true) :
    (s.abandon.execute events).taken = [] ∨ s.polling = true ∧ FindsEnd events := by
  cases stage with
  | unseen _ _ _ _ _ early | checking _ _ _ _ _ early => simp [returned] at early
  | atOnce watcher | woken watcher => simp [hasFired, watcher] at unfired
  | abandoned watcher _ _ untaken _ _ idle =>
    have abandoned : s.abandon.Abandoned :=
      ⟨by simp [abandon, idle, watcher, Watcher.drop], untaken⟩
    exact .inl (abandoned.execute events admitted).untaken
  | waiting watcher _ _ untaken =>
    cases polling : s.polling with
    | false =>
      have abandoned : s.abandon.Abandoned :=
        ⟨by simp [abandon, polling, watcher, Watcher.drop], untaken⟩
      exact .inl (abandoned.execute events admitted).untaken
    | true =>
      have lingering : s.abandon.Lingering :=
        ⟨by simp [abandon, polling, watcher], untaken, polling, asleep, rfl⟩
      exact (lingering.execute events admitted).imp_right fun finds => ⟨rfl, finds⟩

/-- Nothing is left to be done by the call and by the task. -/
def Settled (s : Watch) : Prop := ∀ e : Event, e.isOwn = true → s.admits e = false

theorem calls_of_due_nil (none : s.due = []) : s.calls = s.taken := by
  rw [calls, taken, none, List.append_nil]

theorem Settled.calls (settled : s.Settled) : s.calls = s.taken := by
  have none := settled .carry rfl
  exact calls_of_due_nil (by simpa [admits] using none)

theorem exists_lookUp (unseen : s.watcher = none) : ∃ l, s.admits (.lookUp l) = true := by
  by_cases absent : s.processes.presence s.pid = .absent
  · exact ⟨.missing, by simp [admits, unseen, absent]⟩
  · exact ⟨.found, by simp [admits, unseen, absent]⟩

/-- A watch that is over has called, unless a drop ended its task. -/
theorem Sound.calls_of_settled (sound : s.Sound) (gone : s.isGone = true)
    (kept : s.dropped = true → s.polling = true) (settled : s.Settled) : s.calls = [s.pid] := by
  cases sound.stage with
  | unseen watcher =>
    obtain ⟨l, admitted⟩ := exists_lookUp watcher
    rw [settled (.lookUp l) rfl] at admitted
    cases admitted
  | checking watcher => simpa [admits, isAt, watcher] using settled .check rfl
  | atOnce _ _ _ taken => exact settled.calls.trans taken
  | waiting watcher sight =>
    have ended : s.ended = true := by simpa [isGone, sight] using gone
    have polls := settled .poll rfl
    have awakens := settled .awaken rfl
    have resumes := settled .resume rfl
    simp only [admits, isAt, watcher, ended] at polls awakens resumes
    cases polling : s.polling <;> cases up : s.awoken <;>
      simp [up, polling] at polls awakens resumes
  | abandoned _ _ _ _ _ dropped idle => simp [idle] at kept; simp [kept] at dropped
  | woken _ _ _ taken => exact settled.calls.trans taken

inductive Goes (s : Watch) : Watch → Prop where
  | step (e : Event) (own : e.isOwn = true) (admitted : s.admits e = true) : Goes s (s.advance e)

theorem Sound.ended_of_isGone (sound : s.Sound) (gone : s.isGone = true)
    (here : s.isAt .waiting = true) : s.ended = true := by
  cases sound.stage with
  | waiting watcher sight => simpa [isGone, sight] using gone
  | unseen watcher | checking watcher | atOnce watcher | abandoned watcher | woken watcher =>
    simp [isAt, watcher] at here

/-- How much the call and the task have still to do at most, once the process is gone. -/
def rank (s : Watch) : Nat :=
  (match s.watcher.map Watcher.phase with
    | none => 12
    | some .checking => 8
    | some .waiting => 4
    | some .finished => 0) +
    s.due.length + (!s.returned).toNat + (!s.polling).toNat + (!s.awoken).toNat

theorem rank_become (s : Watch) (w : Watcher) :
    (s.become w.fire).rank ≤
      1 + s.due.length + (!s.returned).toNat + (!s.polling).toNat + (!s.awoken).toNat := by
  unfold Watcher.fire
  split <;> simp [rank, become, Nat.add_comm 1]

theorem Goes.rank {s' : Watch} (goes : s.Goes s') (sound : s.Sound) (gone : s.isGone = true) :
    s'.rank < s.rank := by
  obtain ⟨e, own, admitted⟩ := goes
  cases e with
  | launch | exit | collect | drop => cases own
  | lookUp l =>
    have unseen : s.watcher = none := by
      simpa using ((Bool.and_eq_true _ _).mp admitted).1
    have before : s.rank = 12 + s.due.length + (!s.returned).toNat + (!s.polling).toNat +
        (!s.awoken).toNat := by
      simp [Watch.rank, unseen]
    rw [before]
    cases l <;> simp [advance, Watch.rank, become, Watcher.lookUp, fire] <;> omega
  | check =>
    obtain ⟨w, watcher, phase⟩ := isAt_iff.mp admitted
    have before : s.rank = 8 + s.due.length + (!s.returned).toNat + (!s.polling).toNat +
        (!s.awoken).toNat := by
      simp [Watch.rank, watcher, phase]
    have after : (s.advance .check).rank = (s.become (w.check s.ended)).rank := by
      rw [advance, goOn_of_watcher watcher]
      rfl
    rw [before, after]
    simp only [Watcher.check, phase]
    split
    · have fires := s.rank_become w
      omega
    · simp [Watch.rank, become]
  | carry =>
    have some : s.due ≠ [] := by simpa [admits] using admitted
    have positive := List.length_pos_iff.mpr some
    simp [advance, Watch.rank]
    omega
  | handOver =>
    have early : s.returned = false := by
      simpa using ((Bool.and_eq_true _ _).mp admitted).1
    simp [advance, Watch.rank, early]
  | poll =>
    have idle : s.polling = false := by
      simpa using ((Bool.and_eq_true _ _).mp admitted).2
    simp [advance, Watch.rank, idle]
  | pend =>
    obtain ⟨here, there⟩ := (Bool.and_eq_true _ _).mp admitted
    have ended := sound.ended_of_isGone gone ((Bool.and_eq_true _ _).mp here).1
    simp [ended] at there
  | awaken =>
    have asleep : s.awoken = false := by
      simpa using ((Bool.and_eq_true _ _).mp admitted).2
    simp [advance, Watch.rank, asleep]
  | resume =>
    obtain ⟨w, watcher, phase⟩ := isAt_iff.mp ((Bool.and_eq_true _ _).mp admitted).1
    have before : s.rank = 4 + s.due.length + (!s.returned).toNat + (!s.polling).toNat +
        (!s.awoken).toNat := by
      simp [Watch.rank, watcher, phase]
    have fires := s.rank_become w
    rw [before, advance, goOn_of_watcher watcher]
    simp only [Watcher.wake, phase]
    omega

/-- A process that is gone is not found, or it is found to have ended. -/
theorem Sound.isGone_lookUp (sound : s.Sound) {l : Lookup}
    (admitted : s.admits (.lookUp l) = true) (gone : s.isGone = true) :
    (s.advance (.lookUp l)).isGone = true := by
  obtain ⟨unseen, consistent⟩ := (Bool.and_eq_true _ _).mp admitted
  cases sound.stage with
  | unseen _ sight =>
    cases l with
    | missing | unobservable => rfl
    | found =>
      cases presence : s.processes.presence s.pid with
      | alive => simp [isGone, sight, presence] at gone
      | ended =>
        change (true && decide (s.processes.presence s.pid = .ended)) = true
        simp [presence]
      | absent => simp [presence] at consistent
  | checking watcher | atOnce watcher | waiting watcher | abandoned watcher | woken watcher =>
    simp [watcher] at unseen

/-- What is gone stays so, and no poll ends without calling back then. -/
theorem Goes.keeps {s' : Watch} (goes : s.Goes s') (sound : s.Sound) (gone : s.isGone = true)
    (kept : s.dropped = true → s.polling = true) :
    s'.Sound ∧ s'.isGone = true ∧ s'.pid = s.pid ∧ (s'.dropped = true → s'.polling = true) := by
  obtain ⟨e, own, admitted⟩ := goes
  have sound' := sound.advance e admitted
  cases e with
  | launch | exit | collect | drop => cases own
  | lookUp l => exact ⟨sound', sound.isGone_lookUp admitted gone, rfl, kept⟩
  | carry | handOver | awaken => exact ⟨sound', gone, rfl, kept⟩
  | poll => exact ⟨sound', gone, rfl, fun _ => rfl⟩
  | pend =>
    obtain ⟨here, there⟩ := (Bool.and_eq_true _ _).mp admitted
    have ended := sound.ended_of_isGone gone ((Bool.and_eq_true _ _).mp here).1
    simp [ended] at there
  | check | resume =>
    refine ⟨sound', ?_⟩
    rw [advance, goOn_eq]
    exact ⟨gone, rfl, kept⟩

/-- The call and the task come to an end, and the callback was called then. -/
theorem Sound.exists_called (sound : s.Sound) (gone : s.isGone = true)
    (kept : s.dropped = true → s.polling = true) :
    ∃ s', Relation.ReflTransGen Goes s s' ∧ s'.calls = [s.pid] := by
  induction rank : s.rank using Nat.strongRecOn generalizing s with
  | ind n ih =>
    by_cases settled : s.Settled
    · exact ⟨s, .refl, sound.calls_of_settled gone kept settled⟩
    · simp only [Settled, Classical.not_forall, Bool.not_eq_false] at settled
      obtain ⟨e, own, admitted⟩ := settled
      have step : s.Goes (s.advance e) := .step e own admitted
      obtain ⟨sound', gone', pid, kept'⟩ := step.keeps sound gone kept
      obtain ⟨s', goes, called⟩ := ih _ (rank ▸ step.rank sound gone) sound' gone' kept' rfl
      exact ⟨s', .head step goes, pid ▸ called⟩

theorem calls_prefix_taken (s : Watch) : s.calls <+: s.taken := by
  simp [calls, taken, callsOf, List.filterMap_append]

theorem Sound.taken (sound : s.Sound) :
    s.taken = if s.hasFired then [s.pid] else [] := by
  cases sound.stage with
  | unseen watcher _ _ taken | checking watcher _ _ taken | atOnce watcher _ _ taken
  | waiting watcher _ _ taken | abandoned watcher _ _ taken | woken watcher _ _ taken =>
    simp [taken, hasFired, watcher]

theorem calls_of_untaken (untaken : s.taken = []) : s.calls = [] :=
  List.prefix_nil.mp (untaken ▸ s.calls_prefix_taken)

/-- The callback is called once, if at all, and with the id that is watched. -/
theorem Sound.calls_cases (sound : s.Sound) : s.calls = [] ∨ s.calls = [s.pid] := by
  have first := s.calls_prefix_taken
  rw [sound.taken] at first
  split at first
  · rcases List.prefix_cons_iff.mp first with none | ⟨_, called, rest⟩
    · exact .inl none
    · rw [List.prefix_nil.mp rest] at called
      exact .inr called
  · exact .inl (List.prefix_nil.mp first)

theorem Sound.unfired (sound : s.Sound) (none : s.taken = []) :
    s.calls = [] ∧ s.hasFired = false := by
  refine ⟨calls_of_untaken none, ?_⟩
  have taken := sound.taken
  cases fired : s.hasFired with
  | false => rfl
  | true => simp [fired, none] at taken

theorem Sound.calls_of_returned (sound : s.Sound) (returned : s.returned = true)
    (gone : s.sight ≠ some .found ∨ s.checked = some true) : s.calls = [s.pid] := by
  cases sound.stage with
  | unseen _ _ _ _ _ early | checking _ _ _ _ _ early => simp [returned] at early
  | atOnce _ _ _ taken _ done => exact (calls_of_due_nil (done returned)).trans taken
  | waiting _ sight checked | abandoned _ sight checked | woken _ sight checked =>
    simp [sight, checked] at gone

theorem Sound.untaken_of_alive (sound : s.Sound) (found : s.sight = some .found)
    (alive : s.ended = false) : s.taken = [] := by
  cases sound.stage with
  | unseen _ _ _ untaken | checking _ _ _ untaken | waiting _ _ _ untaken
  | abandoned _ _ _ untaken => exact untaken
  | atOnce _ _ ended => simp [alive] at ended; exact absurd found ended
  | woken _ _ _ _ _ ended => simp [alive] at ended

/-- An id that never names a process always counts as gone. -/
theorem Sound.gone_of_never (sound : s.Sound) (never : isProcessId s.pid = false) :
    s.sight ≠ some .found ∧ s.isGone = true := by
  cases sight : s.sight with
  | none => simp [isGone, sight, Processes.presence_of_not_isProcessId never]
  | some l =>
    rcases sound.named l sight with rfl | named
    · simp [isGone, sight]
    · simp [never] at named

theorem inSystem_eq_missing_iff {processes : Processes} {exhausted : Bool} {pid : UInt32} :
    Lookup.inSystem processes exhausted pid = .missing ↔ processes.presence pid = .absent := by
  unfold Lookup.inSystem
  split
  next absent => simp [absent]
  next there => split <;> simpa using there

/-- Both looks at once, while the processes stay as they are, are one way for a call to go. -/
theorem watch_runs (processes : Processes) (exhausted : Bool) (pid : UInt32) :
    ∃ events, (opening processes pid).admitsAll events = true ∧
      let s := (opening processes pid).execute events
      s.returned = true ∧ s.awoken = false ∧ s.processes = processes ∧
        s.watcher = some (Watcher.watch processes exhausted pid).1 ∧ s.due = [] ∧
          s.done = (Watcher.watch processes exhausted pid).2 := by
  cases look : Lookup.inSystem processes exhausted pid with
  | missing =>
    have absent : processes.presence pid = .absent := inSystem_eq_missing_iff.mp look
    refine ⟨[.lookUp .missing, .carry, .handOver], ?_⟩
    simp [Watcher.watch, look, absent, Watcher.lookUp, fire, Watcher.check, opening, admitsAll,
      admits, execute, advance, become, isAt]
  | unobservable cause =>
    have named : isProcessId pid = true := by
      cases named : isProcessId pid with
      | true => rfl
      | false =>
        have absent : processes.presence pid = .absent :=
          Processes.presence_of_not_isProcessId named
        simp [inSystem_eq_missing_iff.mpr absent] at look
    refine ⟨[.lookUp (.unobservable cause), .carry, .carry, .handOver], ?_⟩
    simp [Watcher.watch, look, named, Watcher.lookUp, fire, Watcher.check, opening, admitsAll,
      admits, execute, advance, become, isAt]
  | found =>
    cases presence : processes.presence pid with
    | absent => simp [inSystem_eq_missing_iff.mpr presence] at look
    | alive =>
      refine ⟨[.lookUp .found, .check, .handOver], ?_⟩
      simp [Watcher.watch, look, presence, Watcher.lookUp, Watcher.check, opening, admitsAll,
        admits, execute, advance, become, goOn, isAt, Processes.isAlive]
    | ended =>
      refine ⟨[.lookUp .found, .check, .carry, .handOver], ?_⟩
      simp [Watcher.watch, look, presence, Watcher.lookUp, Watcher.check, fire, opening, admitsAll,
        admits, execute, advance, become, goOn, isAt, Processes.isAlive]

/-- A callback is called at most once, with the id that is watched, and has fired once it was taken.
It is called before the watcher is handed over if the process is not found, cannot be observed or is
gone when it is checked. It is not called while the process that was found is alive. If the watcher
is dropped before the wait of its task is over, only a poll that is under way then may still call.
Once the process is gone, nothing but such a drop keeps it from being called. -/
theorem execute_calls_once (processes : Processes) (pid : UInt32) (events : List Event)
    (admitted : (opening processes pid).admitsAll events = true) :
    let s := (opening processes pid).execute events
    (s.calls = [] ∨ s.calls = [pid]) ∧
      (s.taken = if s.hasFired then [pid] else []) ∧
      (s.returned = true → s.sight ≠ some .found ∨ s.checked = some true → s.calls = [pid]) ∧
      (s.sight = some .found → s.ended = false →
        s.processes.isAlive pid = true ∧ s.calls = [] ∧ s.hasFired = false) ∧
      (∀ earlier later, events = earlier ++ .drop :: later →
        ((opening processes pid).execute earlier).awoken = false →
        ((opening processes pid).execute earlier).hasFired = false →
          s.calls = [] ∧ s.hasFired = false ∨
            ((opening processes pid).execute earlier).polling = true ∧ FindsEnd later) ∧
      (s.isGone = true → (s.dropped = true → s.polling = true) →
        (s.Settled → s.calls = [pid]) ∧
          ∃ s', Relation.ReflTransGen Goes s s' ∧ s'.calls = [pid]) ∧
      (pid = 0 ∨ 2 ^ 31 - 1 < pid.toNat →
        s.processes.isAlive pid = false ∧ s.sight ≠ some .found ∧ s.isGone = true) := by
  intro s
  have sound : s.Sound := (sound_opening processes pid).execute events admitted
  have same : s.pid = pid := pid_execute _ events
  refine ⟨same ▸ sound.calls_cases, same ▸ sound.taken, ?_,
    fun found alive => ⟨?_, sound.unfired (sound.untaken_of_alive found alive)⟩, ?_, ?_, ?_⟩
  · exact fun returned gone => same ▸ sound.calls_of_returned returned gone
  · simpa [Processes.isAlive, same] using sound.alive found alive
  · rintro earlier later rfl asleep early
    obtain ⟨before, after⟩ := admitsAll_append admitted
    obtain ⟨first, rest⟩ := (Bool.and_eq_true _ _).mp after
    have stage := ((sound_opening processes pid).execute earlier before).stage
    have left := stage.untaken_of_drop ((Bool.and_eq_true _ _).mp first).1 asleep early rest
    exact left.imp_left fun none =>
      sound.unfired (by rw [show s = _ from execute_append _ _ _]; exact none)
  · exact fun gone kept => ⟨fun settled => same ▸ sound.calls_of_settled gone kept settled,
      same ▸ sound.exists_called gone kept⟩
  · intro outside
    have never := Processes.isProcessId_eq_false_iff.mpr outside
    refine ⟨?_, sound.gone_of_never (same ▸ never)⟩
    simp [Processes.isAlive, Processes.presence_of_not_isProcessId never]

/-- A process ends between the check and the wait of the task, and its id is given to another
process before the callback is called. Had the watcher been dropped when no poll was under way, it
would not be called. -/
theorem execute_calls_once_replaced :
    let events : List Event := [
      .lookUp .found, .check, .exit 7, .handOver, .collect 7, .launch 7, .poll, .awaken, .resume,
      .carry]
    let dropping : List Event := [.lookUp .found, .check, .handOver, .poll, .pend, .drop, .exit 7]
    let s := (opening ⟨[7], []⟩ 7).execute events
    let s' := (opening ⟨[7], []⟩ 7).execute dropping
    (opening ⟨[7], []⟩ 7).admitsAll events = true ∧ s.isGone = true ∧ s.dropped = false ∧
      s.processes.isAlive 7 = true ∧ s.calls = [7] ∧
      (opening ⟨[7], []⟩ 7).admitsAll dropping = true ∧ s'.isGone = true ∧ s'.calls = [] := by
  intro events dropping s s'
  have admitted : (opening ⟨[7], []⟩ 7).admitsAll events = true := by decide
  have admitted' : (opening ⟨[7], []⟩ 7).admitsAll dropping = true := by decide
  have settled : s.Settled := by
    intro e own
    cases e <;> first | rfl | cases own
  obtain ⟨_, _, _, _, _, called, _⟩ := execute_calls_once ⟨[7], []⟩ 7 events admitted
  obtain ⟨_, _, _, _, spared, _⟩ := execute_calls_once ⟨[7], []⟩ 7 dropping admitted'
  have idle := (spared [.lookUp .found, .check, .handOver, .poll, .pend] [.exit 7] rfl (by decide)
    (by decide)).resolve_right fun polled => absurd polled.1 (by decide)
  exact ⟨admitted, by decide, by decide, by decide, (called (by decide) (by decide)).1 settled,
    admitted', by decide, idle.1⟩

/-- The watcher is dropped while its task is being polled, and its process ends before the poll
looks. The callback is called. -/
theorem calls_after_drop :
    let earlier : List Event := [.lookUp .found, .check, .handOver, .poll]
    let later : List Event := [.exit 7, .awaken, .resume, .carry]
    let s := (opening ⟨[7], []⟩ 7).execute earlier
    (opening ⟨[7], []⟩ 7).admitsAll (earlier ++ .drop :: later) = true ∧ s.awoken = false ∧
      s.hasFired = false ∧ s.calls = [] ∧ (s.execute (.drop :: later)).calls = [7] := by
  decide

end Watch

end Watcher

end Overseer
