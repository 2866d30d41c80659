import Overseer.Parent.Monitor
import Overseer.Proofs.Parent.Resolution
import Overseer.Proofs.Watcher.Watch

/-!
A monitor from its beginning on. Where no id was found, nobody is watched and the callback is called
at once or not at all; otherwise it is for a watch to call it, whose steps and those of the
processes interleave in any way.
-/
namespace Overseer

namespace Watcher.Watch

variable {s : Watch}

structure Late (s : Watch) : Prop where
  seen : s.watcher.isNone = false
  found : s.sight = some .found → s.ended = true ∧ s.checked ≠ some false

theorem Sound.late_of_lookUp (sound : s.Sound) {l : Lookup}
    (admitted : s.admits (.lookUp l) = true) (gone : s.processes.isAlive s.pid = false) :
    (s.advance (.lookUp l)).Late := by
  obtain ⟨unseen, consistent⟩ := (Bool.and_eq_true _ _).mp admitted
  refine ⟨rfl, fun found => ?_⟩
  obtain rfl : l = .found := Option.some.inj found
  have ended : s.processes.presence s.pid = .ended := by
    cases presence : s.processes.presence s.pid with
    | alive => simp [Processes.isAlive, presence] at gone
    | ended => rfl
    | absent => simp [presence] at consistent
  refine ⟨by simp [Watch.advance, ended], ?_⟩
  cases sound.stage with
  | unseen _ _ checked => simp [Watch.advance, become, checked]
  | checking watcher | atOnce watcher | waiting watcher | abandoned watcher | woken watcher =>
    simp [watcher] at unseen

theorem Late.advance (late : s.Late) {e : Event} (admitted : s.admits e = true) :
    (s.advance e).Late := by
  obtain ⟨seen, found⟩ := late
  cases e with
  | launch | collect | carry | handOver | poll | awaken => exact ⟨seen, found⟩
  | exit pid =>
    exact ⟨seen, fun sight => ⟨by simp [Watch.advance, (found sight).1], (found sight).2⟩⟩
  | lookUp l => simp [admits, seen] at admitted
  | check =>
    obtain ⟨w, watcher, _⟩ := isAt_iff.mp admitted
    rw [Watch.advance, goOn_of_watcher watcher]
    exact ⟨rfl, fun sight => ⟨(found sight).1, by simp [(found sight).1]⟩⟩
  | resume =>
    obtain ⟨w, watcher, _⟩ := isAt_iff.mp ((Bool.and_eq_true _ _).mp admitted).1
    rw [Watch.advance, goOn_of_watcher watcher]
    exact ⟨rfl, found⟩
  | drop =>
    refine ⟨?_, found⟩
    change (if s.polling then s.watcher else s.watcher.map Watcher.drop).isNone = false
    split <;> simpa using seen
  | pend =>
    refine ⟨?_, found⟩
    change (if s.dropped then s.watcher.map Watcher.drop else s.watcher).isNone = false
    split <;> simpa using seen

theorem Sound.calls_of_late (sound : s.Sound) (late : s.Late) (returned : s.returned = true) :
    s.calls = [s.pid] := by
  cases sound.stage with
  | unseen _ _ _ _ _ early | checking _ _ _ _ _ early => simp [returned] at early
  | atOnce _ _ _ taken _ done => exact (calls_of_due_nil (done returned)).trans taken
  | waiting _ sight checked | abandoned _ sight checked | woken _ sight checked =>
    exact absurd checked (late.found sight).2

/-- A poll that finds the end of the process calls back. -/
theorem awaken_runs (waits : s.watcher = some ⟨s.pid, .waiting, false⟩) (done : s.due = [])
    (asleep : s.awoken = false) (ended : s.ended = true) :
    ∃ events, s.admitsAll events = true ∧
      let s' := s.execute events
      s'.returned = s.returned ∧ s'.watcher = some ⟨s.pid, .finished, true⟩ ∧ s'.due = [] ∧
        s'.calls = s.calls ++ [s.pid] := by
  refine ⟨(if s.polling then [] else [.poll]) ++ [.awaken, .resume, .carry], ?_⟩
  cases polling : s.polling <;>
    simp [admitsAll, admits, execute, advance, goOn, become, isAt, Watcher.wake, fire, calls,
      callsOf, waits, done, asleep, ended, polling]

/-- The call does not return before the callback was called, if the process is gone. -/
theorem execute_late {processes : Processes} {pid : UInt32} {earlier later : List Event}
    {l : Lookup}
    (admitted : (opening processes pid).admitsAll (earlier ++ .lookUp l :: later) = true)
    (gone : ((opening processes pid).execute earlier).processes.isAlive pid = false)
    (returned : ((opening processes pid).execute (earlier ++ .lookUp l :: later)).returned = true) :
    ((opening processes pid).execute (earlier ++ .lookUp l :: later)).calls = [pid] := by
  have sound := (sound_opening processes pid).execute _ admitted
  have same : ∀ events, ((opening processes pid).execute events).pid = pid := pid_execute _
  obtain ⟨before, after⟩ := admitsAll_append admitted
  obtain ⟨first, rest⟩ := (Bool.and_eq_true _ _).mp after
  have late := ((sound_opening processes pid).execute earlier before).late_of_lookUp first
    ((same earlier).symm ▸ gone)
  have still := execute_induction late (fun late admitted => late.advance admitted) later rest
  rw [execute_append] at sound returned ⊢
  exact (sound.calls_of_late still returned).trans (by rw [← execute_append, same])

end Watcher.Watch

namespace Parent

open Watcher (Watch)

/-- A monitor from the moment on at which its id is resolved. -/
inductive Vigil where
  /-- There is nobody to watch. -/
  | blind (calls : List (Option UInt32))
  | watching (watch : Watch)

namespace Vigil

def opening (processes : Processes) (missing : Missing) : Option UInt32 → Vigil
  | none => .blind (if missing = .exit then [none] else [])
  | some pid => .watching (.opening processes pid)

def execute : Vigil → List Watch.Event → Vigil
  | .blind calls, _ => .blind calls
  | .watching w, events => .watching (w.execute events)

/-- Where nobody is watched, there is nothing to be done for the call and for a task. -/
def admitsAll : Vigil → List Watch.Event → Bool
  | .blind _, events => events.all (!·.isOwn)
  | .watching w, events => w.admitsAll events

def calls : Vigil → List (Option UInt32)
  | .blind calls => calls
  | .watching w => w.calls.map some

def watched : Vigil → Option UInt32
  | .blind _ => none
  | .watching w => some w.pid

def returned : Vigil → Bool
  | .blind _ => true
  | .watching w => w.returned

def isLive : Vigil → Bool
  | .blind _ => false
  | .watching w => w.sight = some .found && !w.ended

structure Calls (missing : Missing) (pid : Option UInt32) (v : Vigil) : Prop where
  once : v.calls.length ≤ 1
  /-- At any time, and so before anything else happens. -/
  unknown : none ∈ v.calls ↔ pid = none ∧ missing = .exit
  known : ∀ n, some n ∈ v.calls → pid = some n
  watched : v.watched = pid
  live : v.isLive = true → v.calls = []

variable {processes : Processes} {missing : Missing} {pid : Option UInt32}
  {events : List Watch.Event}

theorem calls_watching (missing : Missing) {w : Watch} (sound : w.Sound) :
    Calls missing (some w.pid) (.watching w) := by
  refine ⟨?_, by simp [calls], fun n => ?_, rfl, fun live => ?_⟩
  · rcases sound.calls_cases with called | called <;> simp [calls, called]
  · rcases sound.calls_cases with called | called <;> simp [calls, called, eq_comm]
  · obtain ⟨found, there⟩ := (Bool.and_eq_true _ _).mp live
    have untaken := sound.untaken_of_alive (by simpa using found) (by simpa using there)
    exact congrArg (List.map some) (Watch.calls_of_untaken untaken)

theorem calls_execute (admitted : (opening processes missing pid).admitsAll events = true) :
    Calls missing pid ((opening processes missing pid).execute events) := by
  cases pid with
  | none => cases missing <;> constructor <;> simp [opening, execute, calls, Vigil.watched, isLive]
  | some pid =>
    have sound := (Watch.sound_opening processes pid).execute events admitted
    have called := calls_watching missing sound
    rwa [Watch.pid_execute] at called

theorem sound_of_execute {w : Watch}
    (admitted : (opening processes missing pid).admitsAll events = true)
    (reached : (opening processes missing pid).execute events = .watching w) : w.Sound := by
  cases pid with
  | none => cases reached
  | some pid =>
    cases reached
    exact (Watch.sound_opening processes pid).execute events admitted

/-- A process that is gone when it is looked up is reported before the call returns. -/
theorem calls_of_late {n : UInt32} {earlier later : List Watch.Event} {l : Watcher.Lookup}
    {v : Vigil} (opened : v = opening processes missing (some n))
    (admitted : v.admitsAll (earlier ++ .lookUp l :: later) = true)
    (gone : ((Watch.opening processes n).execute earlier).processes.isAlive n = false)
    (returned : (v.execute (earlier ++ .lookUp l :: later)).returned = true) :
    (v.execute (earlier ++ .lookUp l :: later)).calls = [some n] := by
  subst opened
  exact congrArg (List.map some) (Watch.execute_late admitted gone returned)

end Vigil

namespace Monitor

/-- The monitor after it saw the processes like this, one time after the other. -/
def after (m : Monitor) (seen : List Processes) : Monitor :=
  seen.foldl (fun m processes => m.settle processes) m

def waiting (pid : UInt32) : Monitor := ⟨some pid, some ⟨pid, .waiting, false⟩, []⟩

def fired (pid : UInt32) : Monitor := ⟨some pid, some ⟨pid, .finished, true⟩, [some pid]⟩

def blind (missing : Missing) : Monitor := ⟨none, none, if missing = .exit then [none] else []⟩

theorem after_cons (m : Monitor) (processes : Processes) (seen : List Processes) :
    m.after (processes :: seen) = (m.settle processes).after seen := rfl

theorem start_none (processes : Processes) (missing : Missing) {r : Resolution}
    (unknown : r.pid = none) : (start processes missing r).1 = blind missing := by
  unfold start
  rw [unknown]
  cases missing <;> rfl

theorem start_some (processes : Processes) (missing : Missing) {r : Resolution} {pid : UInt32}
    (known : r.pid = some pid) :
    (start processes missing r).1 = if processes.isAlive pid then waiting pid else fired pid := by
  unfold start
  rw [known]
  cases presence : processes.presence pid <;>
    simp [Watcher.watch, Watcher.Lookup.inSystem, Watcher.lookUp, Watcher.check, Watcher.fire,
      Processes.isAlive, presence, waiting, fired, callsOf]

theorem settle_waiting (processes : Processes) (pid : UInt32) :
    (waiting pid).settle processes = if processes.isAlive pid then waiting pid else fired pid := rfl

theorem settle_fired (processes : Processes) (pid : UInt32) :
    (fired pid).settle processes = fired pid := ite_self _

theorem after_fired (pid : UInt32) (seen : List Processes) :
    (fired pid).after seen = fired pid := by
  induction seen with
  | nil => rfl
  | cons processes seen ih => rwa [after_cons, settle_fired]

theorem after_waiting (pid : UInt32) (seen : List Processes) :
    (waiting pid).after seen =
      if ∀ processes ∈ seen, processes.isAlive pid = true then waiting pid else fired pid := by
  induction seen with
  | nil => rfl
  | cons processes seen ih =>
    rw [after_cons, settle_waiting]
    cases alive : processes.isAlive pid with
    | true =>
      rw [if_pos rfl]
      simpa [alive] using ih
    | false =>
      rw [if_neg Bool.false_ne_true]
      simpa [alive] using after_fired pid seen

theorem after_blind (missing : Missing) (seen : List Processes) :
    (blind missing).after seen = blind missing := by
  induction seen with
  | nil => rfl
  | cons processes seen ih => exact ih

end Monitor

/-- A vigil as a monitor shows it between its looks: the call has returned and nothing is due. -/
inductive Vigil.Shows : Vigil → Monitor → Prop where
  | blind (calls : List (Option UInt32)) : Shows (.blind calls) ⟨none, none, calls⟩
  | watching {w : Watch} {watcher : Watcher} (returned : w.returned = true)
      (made : w.watcher = some watcher) (done : w.due = [])
      (asleep : w.awoken = true → watcher.phase = .finished) :
    Shows (.watching w) ⟨some w.pid, some watcher, w.calls.map some⟩

namespace Monitor

theorem callsOf_eq (effects : List Watcher.Effect) :
    callsOf effects = (Watcher.callsOf effects).map some := by
  rw [callsOf, Watcher.callsOf, List.map_filterMap]
  congr
  funext effect
  cases effect <;> rfl

/-- To start a monitor is one way for a vigil to go. -/
theorem start_shown (processes : Processes) (missing : Missing) (r : Resolution) :
    ∃ events, (Vigil.opening processes missing r.pid).admitsAll events = true ∧
      ((Vigil.opening processes missing r.pid).execute events).Shows
        (start processes missing r).1 := by
  unfold start
  cases r.pid with
  | none => cases missing <;> exact ⟨[], rfl, .blind _⟩
  | some pid =>
    obtain ⟨events, admitted, returned, asleep, _, made, due, done⟩ :=
      Watch.watch_runs processes false pid
    have shows := Vigil.Shows.watching returned made due (by simp [asleep])
    rw [Watch.calls, done, ← callsOf_eq, Watch.pid_execute] at shows
    exact ⟨events, admitted, shows⟩

theorem settle_of_not_waiting (processes : Processes) {m : Monitor} {w : Watcher}
    (watcher : m.watcher = some w) (phase : w.phase ≠ .waiting) : m.settle processes = m := by
  have still : w.wake = (w, []) := by
    unfold Watcher.wake
    split
    next waits => exact absurd waits phase
    next => rfl
  unfold settle
  rw [watcher]
  dsimp only
  rw [still]
  split
  · rfl
  · cases m
    simp_all [callsOf]

/-- To look again at the processes is another. -/
theorem settle_shown {w : Watch} {m : Monitor} (shows : (Vigil.watching w).Shows m)
    (sound : w.Sound) :
    ∃ events, w.admitsAll events = true ∧
      (Vigil.watching (w.execute events)).Shows (m.settle w.processes) := by
  obtain _ | ⟨returned, made, done, asleep⟩ := id shows
  cases sound.stage with
  | unseen _ _ _ _ _ early | checking _ _ _ _ _ early => simp [returned] at early
  | atOnce eq | abandoned eq | woken eq =>
    obtain rfl := Option.some.inj (made.symm.trans eq)
    rw [settle_of_not_waiting w.processes rfl (by simp)]
    exact ⟨[], rfl, shows⟩
  | waiting eq sight _ untaken =>
    obtain rfl := Option.some.inj (made.symm.trans eq)
    have uncalled := Watch.calls_of_untaken untaken
    have sleeping : w.awoken = false := by
      cases up : w.awoken with
      | false => rfl
      | true => cases asleep up
    rw [uncalled] at shows ⊢
    change ∃ events, w.admitsAll events = true ∧
      (Vigil.watching (w.execute events)).Shows ((waiting w.pid).settle w.processes)
    rw [settle_waiting]
    by_cases alive : w.processes.isAlive w.pid = true
    · rw [if_pos alive]
      exact ⟨[], rfl, shows⟩
    · have ended : w.ended = true := by
        cases there : w.ended with
        | true => rfl
        | false => exact absurd (by simp [Processes.isAlive, sound.alive sight there]) alive
      obtain ⟨events, admitted, back, made, done, called⟩ :=
        Watch.awaken_runs eq done sleeping ended
      have shows := Vigil.Shows.watching (back.trans returned) made done fun _ => rfl
      rw [called, uncalled, Watch.pid_execute] at shows
      rw [if_neg alive]
      exact ⟨_, admitted, shows⟩

end Monitor

/-- What is found is an id that is given, or else one that the variable names, or none. After that
the callback is called at most once, whatever the processes do: without an id, at once and only if
an unknown parent counts as gone, when nobody is watched either way; with the id that was found, not
as long as its process is there, and before the call returns if it is not. To start a monitor and to
let it look again are such courses of events, and what it has seen decides on its call. -/
theorem parent_monitored (explicit : Option UInt32) (lookup : String → Option String)
    (missing : Missing) (processes : Processes) :
    let r := resolve explicit lookup
    let v := Vigil.opening processes missing r.pid
    Resolved explicit lookup r ∧
      (∀ events, v.admitsAll events = true → Vigil.Calls missing r.pid (v.execute events)) ∧
      (∀ n earlier l later, r.pid = some n → v.admitsAll (earlier ++ .lookUp l :: later) = true →
        ((Watch.opening processes n).execute earlier).processes.isAlive n = false →
        (v.execute (earlier ++ .lookUp l :: later)).returned = true →
          (v.execute (earlier ++ .lookUp l :: later)).calls = [some n]) ∧
      (∃ events, v.admitsAll events = true ∧
        (v.execute events).Shows (Monitor.start processes missing r).1) ∧
      (∀ events w m, v.admitsAll events = true → v.execute events = .watching w →
        (Vigil.watching w).Shows m → ∃ more, w.admitsAll more = true ∧
          (Vigil.watching (w.execute more)).Shows (m.settle w.processes)) ∧
      ∀ seen : List Processes, (Monitor.start processes missing r).1.after seen =
        match r.pid with
        | none => .blind missing
        | some n =>
          if ∀ p ∈ processes :: seen, p.isAlive n = true then .waiting n else .fired n := by
  intro r v
  refine ⟨resolved_resolve explicit lookup, fun events admitted => Vigil.calls_execute admitted,
    ?_, Monitor.start_shown processes missing r, fun events w m admitted reached shows =>
      Monitor.settle_shown shows (Vigil.sound_of_execute admitted reached), fun seen => ?_⟩
  · intro n earlier l later known admitted gone returned
    have opened : v = Vigil.opening processes missing (some n) :=
      congrArg (Vigil.opening processes missing) known
    exact Vigil.calls_of_late opened admitted gone returned
  · cases known : r.pid with
    | none => rw [Monitor.start_none processes missing known, Monitor.after_blind]
    | some n =>
      rw [Monitor.start_some processes missing known]
      cases alive : processes.isAlive n with
      | true => simpa [alive] using Monitor.after_waiting n seen
      | false => simpa [alive] using Monitor.after_fired n seen

/-- A padded id is found. Its process ends while it is watched, or had ended before it was looked
up. A number of 33 bits is no id, and an unknown parent counts as gone here. -/
theorem parent_monitored_padded :
    let padded : String → Option String := fun _ => some "\u2003+0007\n"
    let long : String → Option String := fun _ => some "4294967296"
    let watched : List Watch.Event :=
      [.lookUp .found, .check, .handOver, .exit 7, .poll, .awaken, .resume, .carry]
    let late : List Watch.Event := [.lookUp .found, .check, .carry, .handOver]
    (resolve none padded).pid = some 7 ∧ Names "\u2003+0007\n" 7 ∧
      Vigil.Calls .exit (some 7) ((Vigil.opening ⟨[7], []⟩ .exit (some 7)).execute watched) ∧
      ((Vigil.opening ⟨[7], []⟩ .exit (some 7)).execute watched).calls = [some 7] ∧
      ((Vigil.opening ⟨[], [7]⟩ .exit (some 7)).execute late).calls = [some 7] ∧
      Vigil.Calls .exit none ((Vigil.opening ⟨[7], []⟩ .exit none).execute [.exit 7]) ∧
      (Monitor.start ⟨[7], []⟩ .exit (resolve none long)).1.calls = [none] := by
  intro padded long watched late
  have found : (resolve none padded).pid = some 7 := by decide
  have unknown : (resolve none long).pid = none := by decide
  obtain ⟨resolved, calls, _⟩ := parent_monitored none padded .exit ⟨[7], []⟩
  obtain ⟨_, _, atOnce, _⟩ := parent_monitored none padded .exit ⟨[], [7]⟩
  obtain ⟨_, blind, _, _, _, after⟩ := parent_monitored none long .exit ⟨[7], []⟩
  obtain ⟨value, present, names⟩ := (resolved.named rfl 7).mp found
  rw [found] at calls atOnce
  rw [unknown] at blind after
  exact ⟨found, Option.some.inj present ▸ names, calls watched (by decide), by decide,
    atOnce 7 [] .found [.check, .carry, .handOver] rfl (by decide) (by decide) (by decide),
    blind [.exit 7] (by decide), congrArg Monitor.calls (after [])⟩

end Parent

end Overseer
