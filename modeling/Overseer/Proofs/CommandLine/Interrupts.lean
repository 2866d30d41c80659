import Overseer.Proofs.CommandLine.Relay

/-!
Interrupts while a program runs. The first one asks for a stop that leaves the program time to exit,
and each further one for a stop that leaves it none. These stops are executed in that order, and a
supervisor that is stopping already refuses them: only the first one is obeyed, and whether its
program is killed is up to that one and to the escalation that it may lead to.
-/
namespace Overseer

namespace Supervisor

def Operation.timeout? : Operation → Option (Option Duration)
  | .stop timeout => some timeout
  | _ => none

def Request.timeout? : Request → Option (Option Duration)
  | .stop timeout => some timeout
  | _ => none

@[simp] theorem Request.timeout?_operation (launched : Except SystemError UInt32) (r : Request) :
    (r.operation launched).timeout? = r.timeout? := by
  cases r <;> rfl

namespace Traffic

def asked (t : Traffic) : List (Option Duration) :=
  t.log.filterMap (fun d => d.operation.timeout?) ++
    (t.executing.bind Operation.timeout?).toList ++ t.queue.filterMap Request.timeout?

def Event.timeout? : Event → Option (Option Duration)
  | .stop timeout => some timeout
  | _ => none

variable {t : Traffic}

/-- A stop that was asked for goes from the queue into execution and from there into the history. -/
theorem asked_advance {e : Event} (admitted : t.admits e = true) :
    (t.advance e).asked = t.asked ++ e.timeout?.toList := by
  cases e with
  | start | stop | report =>
    simp [Traffic.advance, asked, put, Request.timeout?, Event.timeout?, List.filterMap_cons]
  | collect | elapse => simp [Traffic.advance, asked, Event.timeout?]
  | tell index e =>
    simp only [Traffic.advance, tell, Event.timeout?, Option.toList_none, List.append_nil]
    split
    · rfl
    · have none (pids : List UInt32) :
          (pids.map Request.escalate).filterMap Request.timeout? = [] := by
        simp [List.filterMap_eq_nil_iff, Request.timeout?]
      simp only [asked, List.filterMap_append, none, List.append_nil]
  | take launched =>
    obtain ⟨free, some⟩ : t.executing = none ∧ t.queue ≠ [] := by
      simpa [admits] using admitted
    obtain ⟨r, rest, queue⟩ := List.exists_cons_of_ne_nil some
    rw [Traffic.advance, take_eq queue]
    simp [asked, free, queue, filterMap_cons_toList, Event.timeout?]
  | complete =>
    obtain ⟨op, busy⟩ := Option.isSome_iff_exists.mp admitted
    rw [Traffic.advance, complete_eq busy]
    simp [asked, busy, Event.timeout?, filterMap_cons_toList]

/-- What stops did to the process of a supervisor, if the first one that was executed left it so
much time. It is killed by that one if it left none, and by escalations. -/
structure Heeds (limit : Duration) (s : Supervisor) (log : List Deed) : Prop where
  untouched : s.state = .notStarted ∨ s.state = .running → ∀ d ∈ log, d.operation.timeout? = none
  killed : s.killed = true ↔ ∃ d ∈ log, d.kills ≠ []
  causes : ∀ d ∈ log, d.kills ≠ [] →
    (∃ pid, d.operation = .escalate pid) ∨ d.operation = .stop (some limit) ∧ limit = .zero
  atOnce : limit = .zero → s.state = .stopping ∨ s.state.isExited = true →
    s.killed = true ∨ s.state = .exitedUnexpectedly

theorem heeds_fresh (settings : Settings) (limit : Duration) : Heeds limit { settings } [] where
  untouched _ _ member := absurd member List.not_mem_nil
  killed := by simp
  causes _ member := absurd member List.not_mem_nil
  atOnce _ late := by simp [State.isExited] at late

variable {limit : Duration} {s s' : Supervisor} {log : List Deed} {op : Operation}
  {changes : List Change} {kills : List UInt32} {begun : List CooperativeStop} {d : Deed}

/-- One more operation was executed, which killed nothing. -/
theorem Heeds.spare (heeds : Heeds limit s log) (quiet : d.kills = [])
    (killed : s'.killed = s.killed)
    (untouched : s'.state = .notStarted ∨ s'.state = .running →
      (s.state = .notStarted ∨ s.state = .running) ∧ d.operation.timeout? = none)
    (atOnce : limit = .zero → s'.state = .stopping ∨ s'.state.isExited = true →
      s'.killed = true ∨ s'.state = .exitedUnexpectedly) : Heeds limit s' (log ++ [d]) where
  untouched early := by
    obtain ⟨before, none⟩ := untouched early
    simpa [or_imp, forall_and, none] using heeds.untouched before
  killed := by simpa [killed, quiet] using heeds.killed
  causes := by simpa [quiet, or_imp, forall_and] using heeds.causes
  atOnce := atOnce

/-- One more operation was executed, and it killed the process. -/
theorem Heeds.kill (heeds : Heeds limit s log) (killing : d.kills ≠ []) (killed : s'.killed = true)
    (state : s'.state = .stopping)
    (cause : (∃ pid, d.operation = .escalate pid) ∨
      d.operation = .stop (some limit) ∧ limit = .zero) : Heeds limit s' (log ++ [d]) where
  untouched early := by simp [state] at early
  killed := by simp [killed, killing]
  causes := by simpa [or_imp, forall_and, killing] using ⟨heeds.causes, cause⟩
  atOnce _ _ := .inl killed

theorem Heeds.course (heeds : Heeds limit s log) (coherent : Coherent s)
    (course : Course s op s' changes kills begun) (operation : d.operation = op)
    (killing : d.kills = kills)
    (first : s.state = .running → ∀ timeout, op = .stop timeout → timeout = some limit)
    (launch : s.state = .notStarted → ∃ pid, op = .start (.ok pid))
    (once : ∀ launched, op = .start launched → s.state = .notStarted) :
    Heeds limit s' (log ++ [d]) := by
  have timeout : d.operation.timeout? = op.timeout? := by rw [operation]
  cases course with
  | startRefused live launched =>
    exact heeds.spare killing rfl (fun early => ⟨early, timeout⟩) heeds.atOnce
  | launch idle pid =>
    have state := once _ rfl
    have unkilled : s.killed = false := (coherent.notStarted state).2.2.2
    exact heeds.spare killing unkilled.symm (fun _ => ⟨.inl state, timeout⟩) fun _ late => by
      simp [State.isExited] at late
  | launchFailed idle cause =>
    obtain ⟨_, failed⟩ := launch (once _ rfl)
    cases failed
  | stopRefused idle given =>
    refine heeds.spare killing rfl (fun early => ?_) heeds.atOnce
    rcases early with state | running
    · obtain ⟨_, started⟩ := launch state
      cases started
    · exact absurd running idle
  | kill running pid info given none =>
    obtain rfl := first running _ rfl
    have zero : limit = .zero := by simpa [limit?_eq_none_iff] using none
    exact heeds.kill (by simp [killing]) rfl rfl (.inr ⟨operation, zero⟩)
  | ask running pid info given least some =>
    obtain rfl := first running _ rfl
    refine heeds.spare killing rfl (fun early => by simp at early) fun zero _ => ?_
    rw [zero, (limit?_eq_none_iff _).mpr (.inr rfl)] at some
    cases some
  | exit live pid info code =>
    have exited := exitState_isExited (s := s) code
    refine heeds.spare killing rfl (fun early => ?_) fun zero _ => ?_
    · rcases early with state | state <;> simp only at state <;>
        simp [state, State.isExited] at exited
    · rcases (State.isLive_iff _).mp live with running | stopping
      · exact .inr (by simp [exitState, running])
      · rcases heeds.atOnce zero (.inl stopping) with killed | gone
        · exact .inl killed
        · simp [stopping] at gone
  | escalate stopping pid info =>
    exact heeds.kill (by simp [killing]) rfl stopping (.inl ⟨pid, operation⟩)
  | escalateInVain pid other =>
    exact heeds.spare killing rfl (fun early => ⟨early, timeout⟩) heeds.atOnce

/-- What interrupts ask for: the first leaves time to exit, and each further one none. -/
def timeouts (limit : Duration) : Nat → List (Option Duration)
  | 0 => []
  | n + 1 => some limit :: List.replicate n none

theorem timeouts_succ (limit : Duration) (n : Nat) :
    timeouts limit (n + 1) = timeouts limit n ++ [if n = 0 then some limit else none] := by
  cases n with
  | zero => rfl
  | succ n => simp [timeouts, List.replicate_succ']

structure Pressed (limit : Duration) (count : Nat) (t : Traffic) : Prop where
  asked : t.asked = timeouts limit count
  heeds : Heeds limit t.supervisor t.log
  /-- A stop that leaves no time comes too late to do anything. -/
  refused : ∀ d ∈ t.log, d.operation = .stop none → d.after = d.before ∧ d.kills = []

variable {count : Nat} {pid : UInt32} {may : Int32 → Prop}

theorem Pressed.aside {u : Traffic} (pressed : t.Pressed limit count) (aside : t.Aside u) :
    Heeds limit u.supervisor u.log := by
  obtain ⟨state, info, killed⟩ := aside.supervisor
  obtain ⟨untouched, marked, causes, atOnce⟩ := pressed.heeds
  rw [aside.log]
  exact ⟨state ▸ untouched, killed ▸ marked, causes, state ▸ killed ▸ atOnce⟩

/-- The stop at hand is the first one if no stop was executed before. -/
theorem Pressed.first (pressed : t.Pressed limit count) (busy : t.executing = some op)
    (running : t.supervisor.state = .running) {timeout : Option Duration}
    (stop : op = .stop timeout) : timeout = some limit := by
  have none : t.log.filterMap (fun d => d.operation.timeout?) = [] :=
    List.filterMap_eq_nil_iff.mpr (pressed.heeds.untouched (.inr running))
  have asked := pressed.asked
  rw [Traffic.asked, none, busy, stop] at asked
  cases count with
  | zero => cases asked
  | succ n => exact (List.cons.inj asked).1

theorem Pressed.refuses (pressed : t.Pressed limit count) (sound : t.Sound)
    (busy : t.executing = some (.stop none)) :
    (⟨t.supervisor, .stop none⟩ : Deed).after = t.supervisor ∧
      (⟨t.supervisor, .stop none⟩ : Deed).kills = [] := by
  have idle : t.supervisor.state ≠ .running := fun running => by
    cases pressed.first busy running rfl
  have refused := stop_of_refused idle sound.run.coherent.settled none
  simp [Deed.after, Deed.kills, perform, refused, killsOf]

theorem Pressed.complete (pressed : t.Pressed limit count) (once : t.Once pid may)
    (busy : t.executing = some op) :
    Heeds limit t.complete.supervisor t.complete.log ∧
      ∀ d ∈ t.complete.log, d.operation = .stop none → d.after = d.before ∧ d.kills = [] := by
  have deed := once.sound.deed busy
  rw [complete_eq busy]
  refine ⟨?_, fun d member stop => ?_⟩
  · refine pressed.heeds.course deed.coherent deed.course rfl rfl
      (fun running timeout => pressed.first busy running) (fun state => ?_) fun launched start => ?_
    · cases once.lifetime with
      | launching launch => exact ⟨pid, Option.some.inj (busy.symm.trans launch)⟩
      | there _ live =>
        simp [show t.supervisor.state = .notStarted from state, State.isLive] at live
      | gone _ exited =>
        simp [show t.supervisor.state = .notStarted from state, State.isExited] at exited
    · cases once.lifetime with
      | launching _ state => exact state
      | there started | gone started => exact absurd (start ▸ busy) (started launched)
  · rcases List.mem_append.mp member with old | new
    · exact pressed.refused d old stop
    · obtain rfl := List.mem_singleton.mp new
      obtain rfl : op = .stop none := stop
      exact pressed.refuses once.sound busy

theorem Pressed.advance (pressed : t.Pressed limit count) (once : t.Once pid may) {e : Event}
    (admitted : t.admits e = true) (noStop : e.timeout? = none) :
    (t.advance e).Pressed limit count := by
  have asked : (t.advance e).asked = timeouts limit count := by
    rw [asked_advance admitted, noStop, pressed.asked]
    simp
  rcases advance_cases admitted with
    aside | ⟨r, rest, launched, rfl, _, queue⟩ | ⟨op, rfl, busy⟩
  · exact ⟨asked, pressed.aside aside, aside.log ▸ pressed.refused⟩
  · rw [Traffic.advance, take_eq queue] at asked ⊢
    exact ⟨asked, pressed.heeds, pressed.refused⟩
  · obtain ⟨heeds, refused⟩ := pressed.complete once busy
    exact ⟨asked, heeds, refused⟩

theorem Pressed.press (pressed : t.Pressed limit count) :
    (t.advance (.stop (if count = 0 then some limit else none))).Pressed limit (count + 1) where
  asked := by rw [asked_advance rfl, timeouts_succ, pressed.asked]; rfl
  heeds := pressed.heeds
  refused := pressed.refused

end Traffic

end Supervisor

namespace CommandLine

namespace Forwarding

variable {f : Forwarding}

theorem send_keeps (f : Forwarding) (s : Source) (lines : List String) :
    (f.send s lines).interrupts = f.interrupts ∧ (f.send s lines).stopTimeout = f.stopTimeout := by
  cases s <;> exact ⟨rfl, rfl⟩

theorem advance_interrupt (offered : f.offers .interrupt = true) :
    stopsOf (f.advance .interrupt).2 = [f.timeoutOf (min 255 (f.interrupts + 1))] ∧
      (f.advance .interrupt).1.interrupts = min 255 (f.interrupts + 1) ∧
      (f.advance .interrupt).1.stopTimeout = f.stopTimeout := by
  have looping : f.stage = .looping := by
    cases stage : f.stage <;> simp [offers, stage] at offered ⊢
  simp [advance, looping, interrupt, stopsOf]

end Forwarding

namespace Relay

def Event.isInterrupt : Event → Bool
  | .pick .interrupt => true
  | _ => false

structure Pressed (limit : Duration) (count : Nat) (u : Relay) : Prop where
  traffic : u.traffic.Pressed limit count
  counted : u.forwarding.interrupts = min 255 count
  timeout : u.forwarding.stopTimeout = limit

variable {u : Relay} {limit : Duration} {count : Nat} {pid : UInt32}

theorem pressed_opening (settings : Settings) (pid : UInt32) (stopTimeout : Duration) :
    Pressed stopTimeout 0 (opening settings pid stopTimeout) where
  traffic :=
    { asked := rfl
      heeds := Supervisor.Traffic.heeds_fresh settings stopTimeout
      refused := fun _ member => absurd member List.not_mem_nil }
  counted := rfl
  timeout := rfl

theorem Pressed.deliver (pressed : Pressed limit count u) (s : Source) (sent : Pipe × List String) :
    Pressed limit count (u.deliver s sent) := by
  obtain ⟨interrupts, timeout⟩ := u.forwarding.send_keeps s sent.2
  exact ⟨pressed.traffic, interrupts.trans pressed.counted, timeout.trans pressed.timeout⟩

theorem Pressed.pick (pressed : Pressed limit count u) {b : Forwarding.Branch}
    (offered : u.forwarding.offers b = true) :
    Pressed limit (count + if b = .interrupt then 1 else 0) (u.pick b) := by
  by_cases interrupt : b = .interrupt
  · subst interrupt
    obtain ⟨stops, interrupts, timeout⟩ := u.forwarding.advance_interrupt offered
    have given : u.forwarding.timeoutOf (min 255 (u.forwarding.interrupts + 1)) =
        if count = 0 then some limit else none := by
      rw [Forwarding.timeoutOf, pressed.counted, pressed.timeout]
      by_cases first : count = 0
      · simp [first]
      · rw [if_neg first, if_pos (by omega)]
    refine ⟨?_, ?_, timeout.trans pressed.timeout⟩
    · rw [Relay.pick, stops, given]
      exact pressed.traffic.press
    · change (u.forwarding.advance .interrupt).1.interrupts = _
      rw [interrupts, pressed.counted, if_pos rfl]
      omega
  · obtain ⟨stops, interrupts, timeout⟩ := (u.forwarding.picks_advance b).keeps interrupt
    rw [if_neg interrupt, Relay.pick, stops]
    exact ⟨pressed.traffic, interrupts.trans pressed.counted, timeout.trans pressed.timeout⟩

theorem Pressed.advance (pressed : Pressed limit count u) (inv : Invariant pid u) {e : Event}
    (admitted : u.admits e = true) (own : ∀ timeout, e ≠ .act (.stop timeout)) :
    Pressed limit (count + if e.isInterrupt then 1 else 0) (u.advance e) := by
  cases e with
  | act e =>
    obtain ⟨admitted, _⟩ := by simpa [admits] using admitted
    have noStop : e.timeout? = none := by
      cases e with
      | stop timeout => exact absurd rfl (own timeout)
      | _ => rfl
    exact ⟨pressed.traffic.advance inv.once admitted noStop, pressed.counted, pressed.timeout⟩
  | write | close | exit => exact ⟨pressed.traffic, pressed.counted, pressed.timeout⟩
  | read s count => exact pressed.deliver s _
  | finish s => exact pressed.deliver s _
  | pick b =>
    simp only [admits, Bool.and_eq_true] at admitted
    have same : (Event.pick b).isInterrupt = decide (b = .interrupt) := by cases b <;> rfl
    simpa [same, Relay.advance] using pressed.pick admitted.1.1

theorem Pressed.execute (pressed : Pressed limit count u) (inv : Invariant pid u)
    (events : List Event) (admitted : u.admitsAll events = true)
    (own : ∀ timeout, .act (.stop timeout) ∉ events) :
    Pressed limit (count + events.countP Event.isInterrupt) (u.execute events) := by
  induction events generalizing u count with
  | nil => exact pressed
  | cons e events ih =>
    obtain ⟨first, later⟩ : u.admits e = true ∧ (u.advance e).admitsAll events = true := by
      simpa [admitsAll] using admitted
    have step := pressed.advance inv first fun timeout same => own timeout (by simp [same])
    have rest := ih step (inv.advance e first) later fun timeout member =>
      own timeout (List.mem_cons_of_mem e member)
    rw [List.countP_cons, Nat.add_comm (events.countP _), ← Nat.add_assoc]
    exact rest

/-- Only interrupts ask for stops, the first one with the stop timeout and the others without. A
stop without a timeout does nothing: it is refused, since one was executed before it. What kills the
program is an escalation, or the first stop itself if the stop timeout is zero, and then the program
is marked as killed unless its exit came first. -/
theorem execute_interrupts (settings : Settings) (pid : UInt32) (stopTimeout : Duration)
    (events : List Event) (admitted : (opening settings pid stopTimeout).admitsAll events = true)
    (own : ∀ timeout, .act (.stop timeout) ∉ events) :
    let t := ((opening settings pid stopTimeout).execute events).traffic
    t.asked = Supervisor.Traffic.timeouts stopTimeout (events.countP Event.isInterrupt) ∧
      (∀ d ∈ t.log, d.operation = .stop none → d.after = d.before ∧ d.kills = []) ∧
      (t.supervisor.killed = true ↔ ∃ d ∈ t.log, d.kills ≠ []) ∧
      (∀ d ∈ t.log, d.kills ≠ [] → (∃ p, d.operation = .escalate p) ∨
        d.operation = .stop (some stopTimeout) ∧ stopTimeout = .zero) ∧
      (stopTimeout = .zero → ∀ d ∈ t.log, ∀ timeout, d.operation = .stop timeout →
        t.supervisor.killed = true ∨ t.supervisor.state = .exitedUnexpectedly) := by
  intro t
  have pressed := (pressed_opening settings pid stopTimeout).execute
    (invariant_opening settings pid stopTimeout) events admitted own
  have inv := (invariant_opening settings pid stopTimeout).execute events admitted
  rw [Nat.zero_add] at pressed
  obtain ⟨asked, heeds, refused⟩ := pressed.traffic
  refine ⟨asked, refused, heeds.killed, heeds.causes, fun zero d member timeout stop => ?_⟩
  have late : ¬(t.supervisor.state = .notStarted ∨ t.supervisor.state = .running) := fun early => by
    have none := heeds.untouched early d member
    rw [stop] at none
    cases none
  refine heeds.atOnce zero ?_
  cases inv.once.lifetime with
  | launching _ state => exact absurd (.inl state) late
  | there _ live =>
    rcases (State.isLive_iff _).mp live with running | stopping
    · exact absurd (.inr running) late
    · exact .inl stopping
  | gone _ exited => exact .inr exited

/-- A program that ignores the request to exit is interrupted twice, and is killed when its time is
over. -/
theorem execute_interrupts_ignored :
    let settings : Settings := ⟨"", "/bin/server", "", .empty, false⟩
    let limit : Duration := .ofSeconds 5 (by decide)
    let events : List Event := [
      .act .complete, .pick .interrupt, .pick .interrupt, .act (.take (.ok 0)), .act .complete,
      .act (.take (.ok 0)), .act .complete, .act (.tell 0 .answered), .act (.elapse 5000),
      .act (.tell 0 .passed), .act (.take (.ok 0)), .act .complete]
    let t := ((opening settings 7 limit).execute events).traffic
    (opening settings 7 limit).admitsAll events = true ∧
      t.asked = [some limit, none] ∧ t.supervisor.killed = true ∧
      (∀ d ∈ t.log, d.operation = .stop none → d.after = d.before ∧ d.kills = []) ∧
      ∀ d ∈ t.log, d.kills ≠ [] → ∃ p, d.operation = .escalate p := by
  intro settings limit events t
  have admitted : (opening settings 7 limit).admitsAll events = true := by decide +kernel
  have own : ∀ timeout, .act (.stop timeout) ∉ events := by simp [events]
  obtain ⟨asked, refused, _, causes, _⟩ :=
    execute_interrupts settings 7 limit events admitted own
  have killed : t.supervisor.killed = true := by decide +kernel
  refine ⟨admitted, asked, killed, refused, fun d member kills => ?_⟩
  rcases causes d member kills with escalates | ⟨_, zero⟩
  · exact escalates
  · exact absurd zero (by decide)

/-- A second interrupt does not kill: its stop was executed while the program goes on, which nobody
has tried to kill. -/
theorem second_interrupt_spares :
    let settings : Settings := ⟨"", "/bin/server", "", .empty, false⟩
    let limit : Duration := .ofSeconds 5 (by decide)
    let events : List Event := [
      .act .complete, .pick .interrupt, .act (.take (.ok 0)), .act .complete, .pick .interrupt,
      .act (.take (.ok 0)), .act .complete]
    let u := (opening settings 7 limit).execute events
    (opening settings 7 limit).admitsAll events = true ∧ u.forwarding.interrupts = 2 ∧
      (∃ d ∈ u.traffic.log, d.operation = .stop none) ∧ u.traffic.queue = [] ∧
      u.traffic.executing.isNone = true ∧ u.exit = none ∧
      u.traffic.supervisor.state = .stopping ∧ u.traffic.supervisor.killed = false ∧
      ∀ d ∈ u.traffic.log, d.kills = [] := by
  intro settings limit events u
  have last : u.traffic.log.getLast?.map Supervisor.Deed.operation = some (.stop none) := rfl
  obtain ⟨d, final, stop⟩ := Option.map_eq_some_iff.mp last
  exact ⟨by decide +kernel, by decide +kernel, ⟨d, List.mem_of_getLast? final, stop⟩,
    by decide +kernel, by decide +kernel, by decide +kernel, by decide +kernel, by decide +kernel,
    by decide +kernel⟩

end Relay

end CommandLine

end Overseer
