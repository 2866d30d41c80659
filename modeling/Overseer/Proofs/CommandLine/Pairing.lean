import Overseer.CommandLine.Session
import Overseer.Proofs.Shutdown.Asking
import Overseer.Proofs.Supervisor.Reckoning

/-!
A supervisor that stops a process which hosts a listener on its own channel. What each of them does
interleaves in any way: the traffic of the supervisor, the meeting at the listener, the process that
looks around, and its end, by itself or by a kill. The process has no other reason to end, and no
other process gets its id. Their clocks need not agree.
-/
namespace Overseer.CommandLine

open Shutdown (Channel Meeting)
open Supervisor (Traffic)

def statusOf (code : UInt8) : Int32 := Int32.ofNat code.toNat

theorem statusOf_eq_zero_iff (code : UInt8) : statusOf code = 0 ↔ code = 0 := by
  refine ⟨fun zero => ?_, fun zero => zero ▸ rfl⟩
  have bound := code.toNat_lt
  have value := congrArg Int32.toInt zero
  rw [statusOf, Int32.toInt_ofNat_of_lt (by omega)] at value
  exact UInt8.toNat_inj.mp (Int.ofNat_inj.mp value)

/-- Requests are remembered as ignored by those only that ignore them. -/
theorem Session.lookAround_hosting {s : Session} {h h' : Host}
    (hosting : (s.lookAround h).activity = .hosting h') :
    ∃ ignored, h' = { h with ignored } ∧
      (h.options.ignoreExitSignal = false → ignored = h.ignored) := by
  unfold lookAround at hosting
  dsimp only at hosting
  split at hosting
  · cases hosting
  · split at hosting
    · cases hosting
    · cases hosting
      exact ⟨_, rfl, fun heeds => by simp [heeds]⟩

/-- A process goes on unless it is asked to exit and heeds that. -/
theorem Session.lookAround_cases (s : Session) (h : Host)
    (young : h.world.now < h.options.lifetime.toMillis) :
    (∃ h', (s.lookAround h).activity = .hosting h') ∨
      h.options.ignoreExitSignal = false ∧ requested h = true ∧
        (s.lookAround h).activity = .over h.options.exitCode := by
  have goesOn : ¬h.options.lifetime.toMillis ≤ h.world.now := Nat.not_le_of_lt young
  have same (ignored : Bool) : requested { h with ignored } = requested h := rfl
  unfold lookAround
  cases ignores : h.options.ignoreExitSignal <;> cases asked : requested h <;>
    cases h.ignored <;> simp [asked, same, goesOn, host, leave, finish]

/-- It ends as soon as it sees that it is asked to. -/
theorem Session.lookAround_requested (s : Session) {h : Host} (asked : requested h = true)
    (heeds : h.options.ignoreExitSignal = false) (unignored : h.ignored = false) :
    (s.lookAround h).activity = .over h.options.exitCode := by
  have same (ignored : Bool) : requested { h with ignored } = requested h := rfl
  simp [lookAround, asked, heeds, unignored, same, leave, finish]

theorem Session.code?_eq_some_iff (s : Session) (code : UInt8) :
    s.code? = some code ↔ s.activity = .over code := by
  unfold code?
  cases s.activity <;> simp

/-- A process that comes to host a listener has bound its channel, with nobody there yet. -/
theorem Session.startChild_hosting {s : Session} {place : Surroundings} {o : ChildOptions}
    {h : Host} (hosting : (s.startChild place o).activity = .hosting h) :
    h.options = o ∧ (o.ignoreExitSignal = false → h.ignored = false) ∧ ∃ w w' : Shutdown.World,
      w.stations = [] ∧ w.connections = [] ∧ w.signalers = [] ∧
        w.listen (o.channelName.getD (Channel.ofProcess place.self).name) = (.ok h.station, w') ∧
        h.world = { w' with temporary := Shutdown.defaultTemporary } := by
  unfold startChild at hosting
  dsimp only at hosting
  split at hosting
  · cases hosting
  · next station w' bound =>
    split at hosting
    · obtain ⟨ignored, rfl, same⟩ := lookAround_hosting hosting
      exact ⟨rfl, same, _, w', rfl, rfl, rfl, bound, rfl⟩
    · cases hosting

structure Pairing where
  traffic : Traffic
  meeting : Meeting
  child : Session
  /-- The exit status of the process, once it has ended. -/
  exit : Option Int32 := none
  /-- It was attempted to kill the process. -/
  struck : Bool := false
  /-- A limit of the stop ran out before the exit of the process was executed. -/
  expired : Bool := false

namespace Pairing

def isAnswered (u : Pairing) : Bool :=
  (u.meeting.world.signalers[0]?.bind fun a => a.signaler.answer?).isSome

/-- The exit of the process is collected and reported as it is. The stop waits for the answer to its
request, and sees the state as it is. -/
def allows (u : Pairing) (pid : UInt32) : Traffic.Event → Bool
  | .take (.ok p) => p != pid
  | .collect p => p != pid || u.exit.isSome
  | .report p code => p != pid || u.exit = some code
  | .tell index .answered =>
    u.traffic.stops[index]?.all fun s => !s.isAfter pid || s.phase != .asking || u.isAnswered
  | .tell _ (.seen state) => state = u.traffic.supervisor.state
  | _ => true

def act (u : Pairing) (pid : UInt32) (e : Traffic.Event) : Pairing :=
  { u with
    traffic := u.traffic.advance e
    struck := u.struck || u.traffic.strikes pid e
    expired := u.expired || u.traffic.expiresInTime pid e }

inductive Step (pid : UInt32) (k : Nat) (u : Pairing) : Pairing → Prop where
  | act {e : Traffic.Event} (admitted : u.traffic.admits e = true)
      (allowed : u.allows pid e = true) : Step pid k u (u.act pid e)
  /-- Nothing happens to the listener once the process is gone. -/
  | meet {m : Meeting} (step : Meeting.Step k u.meeting m)
      (present : u.exit = none ∨ m.world.stations = u.meeting.world.stations) :
      Step pid k u { u with meeting := m }
  | look {h : Host} (hosting : u.child.activity = .hosting h) (alive : u.exit = none)
      (young : u.meeting.world.now < h.options.lifetime.toMillis) :
      Step pid k u { u with child := u.child.lookAround { h with world := u.meeting.world } }
  | quit {code : UInt8} (quits : u.child.activity = .over code) (alive : u.exit = none) :
      Step pid k u { u with exit := some (statusOf code) }
  | die (struck : u.struck = true) (alive : u.exit = none) :
      Step pid k u { u with exit := some (Child.codeOfSignal Child.killSignal) }

abbrev Steps (pid : UInt32) (k : Nat) : Pairing → Pairing → Prop :=
  Relation.ReflTransGen (Step pid k)

/-- A stop that leaves time is being applied to a process that is there. -/
structure Asks (pid : UInt32) (t : Traffic) : Prop where
  reached : ∃ settings events, (Traffic.fresh settings).admitsAll events = true ∧
    (Traffic.fresh settings).execute events = t
  applied : ∃ limit, t.executing = some (.stop (some limit)) ∧ limit ≠ .zero
  running : t.supervisor.state = .running
  known : t.supervisor.info = some ⟨pid, none⟩
  /-- No other stop is after the process, and its exit was not reported. -/
  alone : pid ∉ t.pursued
  alive : pid ∈ t.reapers

/-- The process hosts a listener on its own channel. Others may have been there since it was bound,
but no signaler was. -/
structure Hosts (pid : UInt32) (o : ChildOptions) (k : Nat) (child : Session) (m : Meeting) :
    Prop where
  begun : ∃ (s : Session) (place : Surroundings), place.self = pid ∧ s.startChild place o = child
  unnamed : o.channelName = none
  bound : ∃ h, child.activity = .hosting h ∧ h.station = k ∧ Meeting.Steps k { world := h.world } m
  uncalled : m.world.signalers = []

def opening (pid : UInt32) (t : Traffic) (child : Session) (m : Meeting) : Pairing where
  traffic := t.complete
  meeting := { m with world := m.world.signal "" (Channel.ofProcess pid).name }
  child

variable {pid : UInt32} {o : ChildOptions} {k : Nat} {u u' : Pairing} {t : Traffic}
  {child : Session} {m : Meeting}

/-- How far the process has come. It ends by itself only if it heeds requests. -/
structure Alive (o : ChildOptions) (k : Nat) (u : Pairing) : Prop where
  activity : (∃ h, u.child.activity = .hosting h ∧ h.options = o ∧ h.station = k ∧
      (o.ignoreExitSignal = false → h.ignored = false)) ∨
    o.ignoreExitSignal = false ∧ u.child.activity = .over o.exitCode
  ended : ∀ code, u.exit = some code →
    u.struck = true ∧ code = Child.codeOfSignal Child.killSignal ∨
      u.child.activity = .over o.exitCode ∧ code = statusOf o.exitCode

/-- What the listener does, and that it acted if the process ended by itself. -/
def Heard (o : ChildOptions) (k : Nat) (u : Pairing) : Prop :=
  ∃ s, Meeting.Invariant k u.meeting s ∧ u.meeting.Acting s ∧
    (u.child.activity = .over o.exitCode → s.listener.phase.isAnswering = true)

structure Invariant (pid : UInt32) (o : ChildOptions) (k : Nat) (u : Pairing) : Prop where
  sound : u.traffic.Sound
  fresh : u.traffic.executing ≠ some (.start (.ok pid))
  reports : ∀ code, u.traffic.Reporting pid code → u.exit = some code
  reckoned : Traffic.Reckoned pid u.exit u.struck u.expired (u.traffic.view pid)
  alive : Alive o k u
  heard : Heard o k u

theorem Invariant.act {e : Traffic.Event} (inv : Invariant pid o k u)
    (admitted : u.traffic.admits e = true) (allowed : u.allows pid e = true) :
    Invariant pid o k (u.act pid e) where
  sound := inv.sound.advance e admitted
  fresh launching := by
    rcases Traffic.launching_advance admitted launching with before | rfl
    · exact inv.fresh before
    · simp [allows] at allowed
  reports code reporting := by
    change u.exit = some code
    rcases Traffic.reporting_advance admitted reporting with before | rfl
    · exact inv.reports code before
    · simpa [allows] using allowed
  reckoned := by
    refine inv.reckoned.advance inv.sound admitted ?_ fun code busy => inv.reports code (.inr busy)
    intro op busy launches
    rw [(Supervisor.launches?_eq_some_iff.mp launches).1] at busy
    exact inv.fresh busy
  alive := by
    refine ⟨inv.alive.activity, fun code ended => (inv.alive.ended code ended).imp_left ?_⟩
    rintro ⟨struck, rfl⟩
    exact ⟨by simp [Pairing.act, struck], rfl⟩
  heard := inv.heard

theorem Invariant.meet {m : Meeting} (inv : Invariant pid o k u)
    (step : Meeting.Step k u.meeting m) :
    Invariant pid o k { u with meeting := m } := by
  obtain ⟨s, known, acting, asked⟩ := inv.heard
  obtain ⟨s', events, known', course⟩ := known.step step
  refine { inv with alive := ⟨inv.alive.activity, inv.alive.ended⟩, heard := ?_ }
  refine ⟨s', known', acting.step known step known', fun quits => ?_⟩
  exact course ▸ Shutdown.Listener.isAnswering_after (asked quits) events

/-- The process looks around. If it ends, its listener has acted. -/
theorem Invariant.look {h : Host} (inv : Invariant pid o k u)
    (hosting : u.child.activity = .hosting h) (present : u.exit = none)
    (young : u.meeting.world.now < h.options.lifetime.toMillis) :
    Invariant pid o k
      { u with child := u.child.lookAround { h with world := u.meeting.world } } := by
  obtain ⟨rfl, station, unignored⟩ :
      h.options = o ∧ h.station = k ∧ (o.ignoreExitSignal = false → h.ignored = false) := by
    rcases inv.alive.activity with ⟨h', hosting', rest⟩ | ⟨_, quits⟩
    · rw [hosting] at hosting'
      cases hosting'
      exact rest
    · rw [hosting] at quits
      cases quits
  obtain ⟨s, known, acting, _⟩ := inv.heard
  have unended (code : Int32) : u.exit ≠ some code := by simp [present]
  have cases := u.child.lookAround_cases { h with world := u.meeting.world } young
  refine { inv with alive := ⟨?_, fun code ended => absurd ended (unended code)⟩, heard := ?_ }
  · rcases cases with ⟨h', goesOn⟩ | ⟨heeds, _, quits⟩
    · obtain ⟨ignored, rfl, same⟩ := Session.lookAround_hosting goesOn
      exact .inl ⟨_, goesOn, rfl, station, fun heeds => (same heeds).trans (unignored heeds)⟩
    · exact .inr ⟨heeds, quits⟩
  · refine ⟨s, known, acting, fun quits => ?_⟩
    rcases cases with ⟨h', goesOn⟩ | ⟨_, asked, _⟩
    · rw [goesOn] at quits
      cases quits
    · simp only [Session.requested, station, Shutdown.World.station?_alone known.alone known.number,
        Option.any_some, decide_eq_true_eq] at asked
      rw [(Shutdown.Listener.outcome?_eq_some_iff _ _).mp asked]
      rfl

theorem Invariant.ends (inv : Invariant pid o k u) (present : u.exit = none) {code : Int32}
    (ended : u.struck = true ∧ code = Child.codeOfSignal Child.killSignal ∨
      u.child.activity = .over o.exitCode ∧ code = statusOf o.exitCode) :
    Invariant pid o k { u with exit := some code } where
  sound := inv.sound
  fresh := inv.fresh
  reports code' reporting := by
    have reported := inv.reports code' reporting
    rw [present] at reported
    cases reported
  reckoned := by
    have reckoned := inv.reckoned
    rw [present] at reckoned
    exact reckoned.ends _
  alive := ⟨inv.alive.activity, fun code' ended' => Option.some.inj ended' ▸ ended⟩
  heard := inv.heard

theorem Invariant.step (inv : Invariant pid o k u) (step : Step pid k u u') :
    Invariant pid o k u' := by
  cases step with
  | act admitted allowed => exact inv.act admitted allowed
  | meet step _ => exact inv.meet step
  | look hosting alive young => exact inv.look hosting alive young
  | @quit code quits alive =>
    refine inv.ends alive (.inr ?_)
    rcases inv.alive.activity with ⟨h, hosting, _⟩ | ⟨_, quits'⟩
    · rw [hosting] at quits
      cases quits
    · rw [quits'] at quits
      cases quits
      exact ⟨quits', rfl⟩
  | die struck alive => exact inv.ends alive (.inl ⟨struck, rfl⟩)

theorem Invariant.steps (inv : Invariant pid o k u) (steps : Steps pid k u u') :
    Invariant pid o k u' := by
  induction steps with
  | refl => exact inv
  | tail _ step ih => exact ih.step step

/-- What happens at the listener is a part of it all. -/
theorem Steps.meeting (steps : Steps pid k u u') : Meeting.Steps k u.meeting u'.meeting := by
  induction steps with
  | refl => exact .refl
  | tail _ step ih =>
    cases step with
    | meet step _ => exact ih.tail step
    | act | look | quit | die => exact ih

theorem Hosts.reachable (hosts : Hosts pid o k child m) : Meeting.Reachable k m := by
  obtain ⟨s, place, _, rfl⟩ := hosts.begun
  obtain ⟨h, hosting, rfl, steps⟩ := hosts.bound
  obtain ⟨_, _, w, w', nobody, quiet, uncalled, bound, world⟩ := Session.startChild_hosting hosting
  have set : Meeting.Step h.station { world := w' } { world := h.world } := by
    rw [world]
    exact .elapse w'.now w'.files Shutdown.defaultTemporary w'.starved
  exact ⟨w, w', _, nobody, quiet, uncalled, bound, .head set steps⟩

theorem Asks.sound (asks : Asks pid t) : t.Sound := by
  obtain ⟨settings, events, admitted, rfl⟩ := asks.reached
  exact Traffic.sound_execute settings admitted

theorem Asks.reckoned (asks : Asks pid t) :
    Traffic.Reckoned pid none false false (t.complete.view pid) := by
  obtain ⟨limit, busy, positive⟩ := asks.applied
  have coherent := asks.sound.run.coherent
  obtain ⟨supervisor, _⟩ :=
    Traffic.complete_ask coherent busy positive asks.running asks.known
  obtain ⟨due, counted, view_eq⟩ := Traffic.view_complete pid busy
  rw [(Traffic.mine_due_of_alone asks.alone).2] at counted
  refine .stopping ?_ ?_ ?_ ?_
  · exact (congrArg Supervisor.state supervisor).trans rfl
  · exact (congrArg Supervisor.info supervisor).trans asks.known
  · exact (congrArg Supervisor.killed supervisor).trans (coherent.running asks.running)
  · have none : (t.complete.view pid).due = 0 := by
      rw [view_eq]
      exact Nat.eq_zero_of_add_eq_zero_right counted
    simp [none]

theorem invariant_opening (asks : Asks pid t) (hosts : Hosts pid o k child m) :
    Invariant pid o k (opening pid t child m) := by
  obtain ⟨limit, busy, _⟩ := asks.applied
  obtain ⟨h, hosting, station, _⟩ := hosts.bound
  obtain ⟨options, unignored⟩ :
      h.options = o ∧ (o.ignoreExitSignal = false → h.ignored = false) := by
    obtain ⟨s, place, _, rfl⟩ := hosts.begun
    obtain ⟨options, unignored, _⟩ := Session.startChild_hosting hosting
    exact ⟨options, unignored⟩
  have reached : Meeting.Reachable k (opening pid t child m).meeting := by
    obtain ⟨w, w', name, nobody, quiet, uncalled, bound, steps⟩ := hosts.reachable
    exact ⟨w, w', name, nobody, quiet, uncalled, bound, steps.tail (.call _ _)⟩
  obtain ⟨s, inv, acting⟩ := reached.acting
  refine ⟨asks.sound.complete busy, ?_, fun code reporting => ?_, asks.reckoned, ?_, s, inv, acting,
    ?_⟩
  · simp [opening, Traffic.complete_eq busy]
  · have idle : t.launching = [] := by simp [Traffic.launching, busy, Supervisor.launches?]
    have admitted : t.admits .complete = true := by simp [Traffic.admits, busy]
    rcases Traffic.reporting_advance admitted reporting with before | report
    · exact absurd before (asks.sound.not_reporting idle asks.alive code)
    · cases report
  · exact ⟨.inl ⟨h, hosting, options, station, unignored⟩, fun _ ended => by cases ended⟩
  · intro quits
    have quits : child.activity = .over o.exitCode := quits
    rw [hosting] at quits
    cases quits

/-- What comes of a stop of a process that ends when it is asked to. Until its exit is executed, the
report of it is outstanding. -/
structure Heeded (pid : UInt32) (o : ChildOptions) (u : Pairing) : Prop where
  /-- Once its listener is done with the request, it ends as soon as it looks around. -/
  ends : ∀ h, u.child.activity = .hosting h →
    Session.requested { h with world := u.meeting.world } = true →
      (u.child.lookAround { h with world := u.meeting.world }).activity = .over o.exitCode
  supervisor : u.expired = false → u.traffic.supervisor.info.map ProcessInfo.id = some pid →
    u.traffic.supervisor.killed = false ∧
      (u.traffic.supervisor.state = .stopping ∧ pid ∈ u.traffic.outstanding ∨
        u.traffic.supervisor.state =
            (if o.exitCode = 0 then .exitedSuccessfully else .exitedWithError) ∧
          u.traffic.supervisor.info = some ⟨pid, some (statusOf o.exitCode)⟩)
  asked : u.expired = false → u.exit.isSome = true → ∃ n, u.meeting.Asked n

structure Ignored (pid : UInt32) (k : Nat) (u : Pairing) : Prop where
  /-- It does not end by itself. -/
  goesOn : u.child.isOver = false ∧ ∀ code, u.exit = some code → u.struck = true
  /-- Its listener acts on one request at most, that of the stop, and accepts nobody from then on. -/
  once : ∃ s, u.meeting.world.station? k = some s ∧ s.calls ≤ 1 ∧
    (s.listener.phase.isAnswering = true → (∃ n, u.meeting.Asked n) ∧
      ∀ u', Steps pid k u u' → ∀ c m, ¬Meeting.Occurs k u'.meeting (.accepted c) m)
  only : ∀ n, u.meeting.world.received n ≠ [] → u.meeting.Asked n
  killed : u.traffic.supervisor.info.map ProcessInfo.id = some pid →
    u.traffic.supervisor.state ≠ .stopping →
      u.expired = true ∧ u.traffic.supervisor.state = .exitedKilled ∧
        u.traffic.supervisor.killed = true

/-- Nobody tries to kill the process before a limit has run out. -/
theorem Invariant.expired_of_struck (inv : Invariant pid o k u) (struck : u.struck = true) :
    u.expired = true := by
  cases inv.reckoned with
  | stopping _ _ _ late => exact late (.inr struck)
  | gone _ _ late => exact late struck

theorem Invariant.heeded (inv : Invariant pid o k u) (heeds : o.ignoreExitSignal = false)
    (discreet : u.meeting.Discreet) : Heeded pid o u := by
  have itself (inTime : u.expired = false) {code : Int32} (ended : u.exit = some code) :
      u.child.activity = .over o.exitCode ∧ code = statusOf o.exitCode := by
    refine (inv.alive.ended code ended).resolve_left fun hit => ?_
    rw [inv.expired_of_struck hit.1] at inTime
    cases inTime
  have unstruck (inTime : u.expired = false) : u.struck = false := by
    by_contra struck
    rw [inv.expired_of_struck (by simpa using struck)] at inTime
    cases inTime
  refine ⟨fun h hosting asked => ?_, fun inTime known => ?_, fun inTime ended => ?_⟩
  · rcases inv.alive.activity with ⟨h', hosting', rfl, _, unignored⟩ | ⟨_, quits⟩
    · rw [hosting] at hosting'
      cases hosting'
      exact u.child.lookAround_requested asked heeds (unignored heeds)
    · rw [hosting] at quits
      cases quits
  · cases inv.reckoned with
    | stopping state info marked =>
      have state : u.traffic.supervisor.state = .stopping := state
      exact ⟨marked.trans (unstruck inTime),
        .inl ⟨state, inv.sound.mem_outstanding (by simp [state]) info⟩⟩
    | gone code ended _ remains =>
      obtain ⟨state, info, killed⟩ := remains known
      obtain ⟨_, rfl⟩ := itself inTime ended
      rw [unstruck inTime, Supervisor.verdict_unkilled] at state
      refine ⟨killed.trans (unstruck inTime), .inr ⟨state.trans ?_, info⟩⟩
      simp [Supervisor.graceful, statusOf_eq_zero_iff]
  · obtain ⟨code, ended⟩ := Option.isSome_iff_exists.mp ended
    obtain ⟨s, known, acting, asked⟩ := inv.heard
    exact acting.asked known discreet (asked (itself inTime ended).1)

theorem Invariant.ignored (inv : Invariant pid o k u) (ignores : o.ignoreExitSignal = true)
    (discreet : u.meeting.Discreet) : Ignored pid k u := by
  have hosting : ∃ h, u.child.activity = .hosting h := by
    rcases inv.alive.activity with ⟨h, hosting, _⟩ | ⟨heeds, _⟩
    · exact ⟨h, hosting⟩
    · rw [ignores] at heeds
      cases heeds
  obtain ⟨h, hosting⟩ := hosting
  have struck (code : Int32) (ended : u.exit = some code) : u.struck = true := by
    rcases inv.alive.ended code ended with hit | ⟨quits, _⟩
    · exact hit.1
    · rw [hosting] at quits
      cases quits
  obtain ⟨s, known, acting, _⟩ := inv.heard
  refine ⟨⟨?_, struck⟩, ⟨s, ?_, ?_, fun answering => ⟨?_, fun u' steps c m => ?_⟩⟩, fun n some => ?_,
    fun info left => ?_⟩
  · rw [Session.isOver, hosting]
  · exact Shutdown.World.station?_alone known.alone known.number
  · rw [known.answers.calls]
    split <;> omega
  · exact acting.asked known discreet answering
  · obtain ⟨s', events, known', course⟩ := known.steps steps.meeting
    exact known'.not_accepted (course ▸ Shutdown.Listener.isAnswering_after answering events) c
  · obtain ⟨n', asked⟩ := acting.asked known discreet (known.answers.deserved n some).1
    obtain rfl := asked.only n some
    exact asked
  · cases inv.reckoned with
    | stopping state => exact absurd state left
    | gone code ended late remains =>
      obtain ⟨state, _, killed⟩ := remains info
      rw [struck code ended] at state killed
      exact ⟨late (struck code ended), state, killed⟩

/-- A process that hosts a listener on its own channel is stopped by its supervisor, and nobody else
sends a request. If it heeds requests and no limit runs out before its exit is executed, it counts as
exited with its code. If it ignores them, its listener acts on that of the stop at most, it goes on,
and it is killed once a limit has run out. -/
theorem steps_stop (asks : Asks pid t) (hosts : Hosts pid o k child m)
    (steps : Steps pid k (opening pid t child m) u) (discreet : u.meeting.Discreet) :
    (o.ignoreExitSignal = false → Heeded pid o u) ∧
      (o.ignoreExitSignal = true → Ignored pid k u) := by
  have inv := (invariant_opening asks hosts).steps steps
  exact ⟨fun heeds => inv.heeded heeds discreet, fun ignores => inv.ignored ignores discreet⟩

theorem Steps.of_meeting {m' : Meeting} (present : u.exit = none)
    (steps : Meeting.Steps k u.meeting m') : Steps pid k u { u with meeting := m' } := by
  induction steps with
  | refl => exact .refl
  | tail _ step ih => exact ih.tail (.meet step (.inl present))

/-- Whether an event may come at any time, but for the end of the process. -/
def isFree (pid : UInt32) (exit : Option Int32) : Traffic.Event → Bool
  | .take (.ok p) => p != pid
  | .collect p => p != pid || exit.isSome
  | .report p code => p != pid || exit = some code
  | .tell _ .answered | .tell _ (.seen _) => false
  | _ => true

theorem allows_of_isFree {e : Traffic.Event} (free : isFree pid u.exit e = true) :
    u.allows pid e = true := by
  cases e with
  | take launched => cases launched <;> exact free
  | tell index e => cases e <;> first | rfl | cases free
  | collect | report => exact free
  | start | stop | elapse | complete => rfl

/-- A part of the traffic is a part of it all. -/
theorem Steps.of_traffic (pid : UInt32) (k : Nat) (events : List Traffic.Event)
    (admitted : u.traffic.admitsAll events = true) (free : events.all (isFree pid u.exit) = true) :
    ∃ u', Steps pid k u u' ∧ u'.traffic = u.traffic.execute events ∧ u'.exit = u.exit ∧
      u'.meeting = u.meeting := by
  induction events generalizing u with
  | nil => exact ⟨u, .refl, rfl, rfl, rfl⟩
  | cons e events ih =>
    obtain ⟨first, later⟩ :
        u.traffic.admits e = true ∧ (u.traffic.advance e).admitsAll events = true := by
      simpa [Traffic.admitsAll] using admitted
    obtain ⟨free, free'⟩ : isFree pid u.exit e = true ∧ events.all (isFree pid u.exit) = true := by
      simpa using free
    obtain ⟨u', steps, same⟩ := ih (u := u.act pid e) later free'
    exact ⟨u', .head (.act first (allows_of_isFree free)) steps, same⟩

def serving (ignores : Bool) : ChildOptions := ⟨none, none, ignores, 3, .ofSeconds 60 (by decide)⟩

def server (ignores : Bool) : Session :=
  Session.startChild { self := 7, activity := .over 0 }
    { self := 7
      environment := .empty
      system := { files := Meeting.bare.files }
      processes := ⟨[7], []⟩
      script := {} }
    (serving ignores)

def asking : Traffic :=
  (Traffic.fresh ⟨"", "/bin/server", "", .empty, false⟩).execute
    [.start, .stop (some (.ofSeconds 3 (by decide))), .take (.ok 7), .complete, .take (.ok 0)]

theorem asks_asking : Asks 7 asking where
  reached := ⟨_, _, by decide, rfl⟩
  applied := ⟨_, rfl, by decide⟩
  running := by decide
  known := by decide
  alone := by decide
  alive := by decide

def hostOf (s : Session) : Option Host :=
  match s.activity with
  | .hosting h => some h
  | _ => none

theorem hostOf_eq_some_iff (s : Session) (h : Host) :
    hostOf s = some h ↔ s.activity = .hosting h := by
  unfold hostOf
  cases s.activity <;> simp

def askedWorld (h : Host) : Shutdown.World :=
  (h.world.signal "" (Channel.ofProcess 7).name).advance 100

theorem hosts_server (ignores : Bool) : ∃ h, (server ignores).activity = .hosting h ∧
    Hosts 7 (serving ignores) 0 (server ignores) { world := h.world } := by
  have alone : (hostOf (server ignores)).any
      (fun h => h.station = 0 && h.world.signalers.isEmpty) = true := by
    cases ignores <;> decide +kernel
  obtain ⟨h, hosting, alone⟩ := Option.any_eq_true .. |>.mp alone
  obtain ⟨station, uncalled⟩ := by simpa using alone
  have hosting := (hostOf_eq_some_iff _ _).mp hosting
  exact ⟨h, hosting, ⟨_, _, rfl, rfl⟩, rfl, ⟨h, hosting, station, .refl⟩, uncalled⟩

theorem askedWorld_server : (hostOf (server false)).any (fun h =>
    ((server false).lookAround { h with world := askedWorld h }).code? = some 3 &&
    (askedWorld h).now < h.options.lifetime.toMillis &&
    (askedWorld h).connections.map (·.number) = [1] &&
    ((askedWorld h).signalers[0]?.bind fun a => a.signaler.answer?).any (·.isOk)) = true := by
  decide +kernel

/-- The only connection is that of the stop. -/
theorem discreet_asked {h : Host} {m : Meeting}
    (steps : Meeting.Steps 0 { world := h.world.signal "" (Channel.ofProcess 7).name } m)
    (world : m.world = askedWorld h) {s : Shutdown.Station} (inv : Meeting.Invariant 0 m s)
    (alone : (askedWorld h).connections.map (·.number) = [1])
    (answered :
      ((askedWorld h).signalers[0]?.bind fun a => a.signaler.answer?).any (·.isOk) = true) :
    m.Discreet := by
  have only (n : Nat) (made : (m.world.connection? n).isSome = true) : n = 1 := by
    rw [world, Shutdown.World.connection?, List.find?_isSome] at made
    obtain ⟨c, member, number⟩ := made
    have listed : c.number ∈ (askedWorld h).connections.map (·.number) :=
      List.mem_map_of_mem member
    rw [alone, List.mem_singleton] at listed
    rw [← listed]
    exact (of_decide_eq_true number).symm
  have told : m.Acknowledged 0 := Meeting.acknowledged_of_any (world ▸ answered)
  obtain ⟨n, line, some⟩ := inv.callers.acknowledged 0 told
  have here : (m.world.connection? n).isSome = true := by
    by_contra none
    simp [Shutdown.World.received, Option.not_isSome_iff_eq_none.mp none] at some
  have carried : m.Carried := Meeting.Carried.steps (fun n sent => absurd rfl sent) steps
  intro c other requests
  have sent : m.sent c ≠ [] := by
    intro nothing
    rw [nothing] at requests
    exact Shutdown.not_requests (by simp) requests
  rw [only n here, ← only c (carried c sent)] at line
  exact other line

theorem exists_steps_heeding : ∃ m u, Hosts 7 (serving false) 0 (server false) m ∧
    Steps 7 0 (opening 7 asking (server false) m) u ∧ u.meeting.Discreet ∧
    u.traffic.supervisor.state = .exitedWithError := by
  obtain ⟨h, hosting, hosts⟩ := hosts_server false
  have facts := askedWorld_server
  rw [(hostOf_eq_some_iff _ _).mpr hosting, Option.any_some] at facts
  simp only [Bool.and_eq_true, decide_eq_true_eq] at facts
  obtain ⟨⟨⟨exited, young⟩, alone⟩, answered⟩ := facts
  obtain ⟨s, inv, _⟩ := (invariant_opening asks_asking hosts).heard
  obtain ⟨m, advanced, world⟩ := Meeting.advance_leads inv 100
  obtain ⟨s', _, inv', _⟩ := inv.steps advanced
  have world : m.world = askedWorld h := world
  rw [← world] at exited young
  have quits : ((server false).lookAround { h with world := m.world }).activity = .over 3 :=
    (Session.code?_eq_some_iff _ _).mp exited
  let u : Pairing := { opening 7 asking (server false) { world := h.world } with meeting := m }
  let left : Pairing :=
    { u with
      child := (server false).lookAround { h with world := m.world }
      exit := some (statusOf 3) }
  have asked : Steps 7 0 _ u := .of_meeting rfl advanced
  have quit : Steps 7 0 _ left := (asked.tail (.look hosting rfl young)).tail (.quit quits rfl)
  obtain ⟨u', reported, traffic, _, meeting⟩ := Steps.of_traffic 7 0 (u := left)
    [.report 7 3, .take (.ok 0), .complete] rfl rfl
  refine ⟨_, u', hosts, quit.trans reported, ?_, ?_⟩
  · rw [meeting]
    exact discreet_asked advanced world inv' alone answered
  · rw [traffic]
    rfl

theorem exists_steps_ignoring : ∃ m u, Hosts 7 (serving true) 0 (server true) m ∧
    Steps 7 0 (opening 7 asking (server true) m) u ∧ u.meeting.Discreet ∧
    u.traffic.supervisor.state = .exitedKilled := by
  let escalation : List Traffic.Event :=
    [.elapse 3000, .tell 0 .passed, .take (.ok 0), .complete]
  let report : List Traffic.Event := [.report 7 137, .take (.ok 0), .complete]
  have admitted : asking.complete.admitsAll escalation = true := by decide
  have facts : (asking.complete.execute escalation).supervisor.killed = true ∧
      (asking.complete.execute escalation).admitsAll report = true ∧
      ((asking.complete.execute escalation).execute report).supervisor.state = .exitedKilled := by
    decide
  obtain ⟨h, hosting, hosts⟩ := hosts_server true
  obtain ⟨u, late, traffic, present, meeting⟩ := Steps.of_traffic 7 0
    (u := opening 7 asking (server true) { world := h.world }) escalation admitted rfl
  change u.traffic = asking.complete.execute escalation at traffic
  rw [← traffic] at facts
  obtain ⟨killed, reports, ended⟩ := facts
  have struck : u.struck = true := by
    have inv := (invariant_opening asks_asking hosts).steps late
    cases inv.reckoned with
    | stopping _ _ marked => exact marked.symm.trans killed
    | gone _ ended => exact absurd (present.symm.trans ended) (by simp [opening])
  obtain ⟨u', reported, traffic', _, meeting'⟩ := Steps.of_traffic 7 0
    (u := { u with exit := some 137 }) report reports rfl
  refine ⟨_, u', hosts, (late.tail (.die struck present)).trans reported, ?_, ?_⟩
  · rw [meeting', meeting]
    exact fun _ _ => Shutdown.not_requests List.not_mem_nil
  · rw [traffic']
    exact ended

/-- A process is asked to exit, and does so. One that ignores requests is killed. -/
theorem steps_stop_server :
    (∃ m u, Hosts 7 (serving false) 0 (server false) m ∧
        Steps 7 0 (opening 7 asking (server false) m) u ∧ u.meeting.Discreet ∧
        Heeded 7 (serving false) u ∧ u.traffic.supervisor.state = .exitedWithError) ∧
      ∃ m u, Hosts 7 (serving true) 0 (server true) m ∧
        Steps 7 0 (opening 7 asking (server true) m) u ∧ u.meeting.Discreet ∧ Ignored 7 0 u ∧
        u.traffic.supervisor.state = .exitedKilled := by
  constructor
  · obtain ⟨m, u, hosts, steps, discreet, state⟩ := exists_steps_heeding
    have stop := steps_stop asks_asking hosts steps discreet
    exact ⟨m, u, hosts, steps, discreet, stop.1 rfl, state⟩
  · obtain ⟨m, u, hosts, steps, discreet, state⟩ := exists_steps_ignoring
    have stop := steps_stop asks_asking hosts steps discreet
    exact ⟨m, u, hosts, steps, discreet, stop.2 rfl, state⟩

end Pairing

end Overseer.CommandLine
