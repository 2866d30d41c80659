import Mathlib.Logic.Function.Basic
import Overseer.Child
import Overseer.Proofs.CommandLine.Lanes
import Overseer.Proofs.Supervisor.Lifetime
import Overseer.Supervisor.World

/-!
What `run` does from the launch of its program on. The program writes and ends, as do others that
hold its streams open; the readers of its streams cut them into lines; its exit is reported once the
readers are done or were waited for long enough, and is executed by the supervisor, which others may
ask for stops; and the loop picks whatever is ready, and drains what is left in the end. All of this
interleaves in any way. Readers may be slow: that they keep up is asked for where it is needed.
-/
namespace Overseer.CommandLine

open Supervisor (Traffic)

structure Relay where
  traffic : Traffic
  forwarding : Forwarding
  pipes : Source → Pipe := fun _ => {}
  /-- The exit code of the program, and when it ended. -/
  exit : Option (Int32 × Nat) := none
  /-- The lines that were passed on. -/
  said : Source → List String := fun _ => []
  /-- A receiver missed lines. -/
  lost : Bool := false
  /-- With what `run` ended. -/
  code : Option UInt8 := none

namespace Relay

inductive Event where
  | act (e : Traffic.Event)
  | write (s : Source) (bytes : List UInt8)
  /-- The last of those who could write to a stream goes. -/
  | close (s : Source)
  /-- The program ends. -/
  | exit (code : Int32)
  | read (s : Source) (count : Nat)
  | finish (s : Source)
  | pick (b : Forwarding.Branch)

variable (u : Relay)

def captures (s : Source) : Bool := s.isCaptured u.traffic.supervisor.settings

def everywhere (holds : Pipe → Bool) : Bool :=
  holds (u.pipes .output) && (!u.captures .errors || holds (u.pipes .errors))

def deadline? : Option Nat := u.exit.map fun exit => exit.2 + Child.drainLimit

def act (e : Traffic.Event) : Relay := { u with traffic := u.traffic.advance e }

def setPipe (s : Source) (p : Pipe) : Relay := { u with pipes := Function.update u.pipes s p }

def deliver (s : Source) (sent : Pipe × List String) : Relay :=
  let f := u.forwarding.send s sent.2
  { u.setPipe s sent.1 with
    forwarding := f
    lost := u.lost || f.output.missed ≠ 0 || f.errors.missed ≠ 0 }

/-- Passes on what was picked. With the end of what is left comes the end of it all. -/
def speak (b : Forwarding.Branch) : Relay :=
  { u with
    forwarding := (u.forwarding.advance b).1
    said := fun s => u.said s ++ Forwarding.linesOf s (u.forwarding.advance b).2
    code :=
      if (u.forwarding.advance b).1.stage = .finished then some (outcome u.traffic.supervisor)
      else none }

def ask (timeouts : List (Option Duration)) : Relay :=
  { u with traffic := u.traffic.execute (timeouts.map .stop) }

def pick (b : Forwarding.Branch) : Relay :=
  (u.speak b).ask (Forwarding.stopsOf (u.forwarding.advance b).2)

def advance : Event → Relay
  | .act e => u.act e
  | .write s bytes => u.setPipe s ((u.pipes s).write bytes)
  | .close s => u.setPipe s ((u.pipes s).close u.traffic.now)
  | .exit code => { u with exit := some (code, u.traffic.now) }
  | .read s count => u.deliver s ((u.pipes s).take count)
  | .finish s => u.deliver s ((u.pipes s).finish u.traffic.now)
  | .pick b => u.pick b

/-- The program is started once. Its exit is reported as it is, when the readers are done or were
waited for. -/
def allows : Traffic.Event → Bool
  | .start => false
  | .collect _ => u.exit.isSome
  | .report _ code => u.exit.any fun exit =>
    exit.1 = code &&
      (u.everywhere Pipe.isEnded || exit.2 + Child.drainLimit ≤ u.traffic.now)
  | .stop _ | .tell _ _ | .take _ | .complete | .elapse _ => true

/-- The loop begins once the start is done, and ends only if the program is gone. -/
def admits : Event → Bool
  | .act e => u.traffic.admits e && u.allows e
  | .write s _ | .close s => (u.pipes s).closed.isNone
  | .exit _ => u.exit.isNone
  | .read s _ => u.captures s && !(u.pipes s).isEnded
  | .finish s => u.captures s && (u.pipes s).isAtEnd
  | .pick b =>
    u.forwarding.offers b && u.traffic.supervisor.state ≠ .notStarted &&
      (b ≠ .ended || u.traffic.supervisor.state.isTerminal)

def execute (u : Relay) : List Event → Relay
  | [] => u
  | e :: events => (u.advance e).execute events

def admitsAll (u : Relay) : List Event → Bool
  | [] => true
  | e :: events => u.admits e && (u.advance e).admitsAll events

def opening (settings : Settings) (pid : UInt32) (stopTimeout : Duration) : Relay where
  traffic := Traffic.opening settings pid
  forwarding :=
    { stopTimeout
      output := ⟨Supervision.lineCapacity, [], 0⟩
      errors := ⟨Supervision.lineCapacity, [], 0⟩ }

variable {u : Relay}

@[simp] theorem pipes_setPipe_self (u : Relay) (s : Source) (p : Pipe) :
    (u.setPipe s p).pipes s = p :=
  Function.update_self ..

theorem pipes_setPipe_of_ne {s s' : Source} (other : s' ≠ s) (p : Pipe) :
    (u.setPipe s p).pipes s' = u.pipes s' :=
  Function.update_of_ne other ..

theorem everywhere_eq_true_iff {holds : Pipe → Bool} :
    u.everywhere holds = true ↔ ∀ s, u.captures s = true → holds (u.pipes s) = true := by
  simp only [everywhere, Bool.and_eq_true, Bool.or_eq_true, Bool.not_eq_true']
  refine ⟨fun ⟨output, errors⟩ s captured => ?_, fun all => ⟨all .output rfl, ?_⟩⟩
  · cases s with
    | output => exact output
    | errors => exact errors.resolve_left (by simp [captured])
  · cases captured : u.captures .errors with
    | false => exact .inl rfl
    | true => exact .inr (all .errors captured)

/-- The wait for the readers is over. -/
def Expired (u : Relay) : Prop := ∃ deadline, u.deadline? = some deadline ∧ deadline ≤ u.traffic.now

/-- The program has ended with an exit code, and its readers are done or were waited for. -/
def Ended (u : Relay) (code : Int32) : Prop :=
  (∃ time, u.exit = some (code, time)) ∧
    (u.Expired ∨ ∀ s, u.captures s = true → (u.pipes s).isEnded = true)

/-- The end of a stream was read before the wait for its reader was over. -/
def InTime (u : Relay) (s : Source) : Prop :=
  ∃ deadline time, u.deadline? = some deadline ∧ (u.pipes s).ended = some time ∧ time < deadline

structure Later (u u' : Relay) : Prop where
  captures : u'.captures = u.captures
  now : u.traffic.now ≤ u'.traffic.now
  exit : ∀ exit, u.exit = some exit → u'.exit = some exit
  ended : ∀ s time, (u.pipes s).ended = some time → (u'.pipes s).ended = some time

variable {u' : Relay} {s : Source}

theorem Later.isEnded (later : Later u u') (ended : (u.pipes s).isEnded = true) :
    (u'.pipes s).isEnded = true := by
  obtain ⟨time, read⟩ := Option.isSome_iff_exists.mp ended
  exact Option.isSome_iff_exists.mpr ⟨time, later.ended s time read⟩

theorem Later.deadline (later : Later u u') {deadline : Nat} (due : u.deadline? = some deadline) :
    u'.deadline? = some deadline := by
  obtain ⟨exit, ended, rfl⟩ := Option.map_eq_some_iff.mp due
  rw [deadline?, later.exit exit ended]
  rfl

theorem Expired.later (expired : u.Expired) (later : Later u u') : u'.Expired := by
  obtain ⟨deadline, due, passed⟩ := expired
  exact ⟨deadline, later.deadline due, Nat.le_trans passed later.now⟩

theorem Ended.later {code : Int32} (ended : u.Ended code) (later : Later u u') : u'.Ended code := by
  obtain ⟨⟨time, exit⟩, done⟩ := ended
  refine ⟨⟨time, later.exit _ exit⟩, done.imp (·.later later) fun all s captured => ?_⟩
  rw [later.captures] at captured
  exact later.isEnded (all s captured)

/-- What was read in time had been read when the readers were done or were waited for. -/
theorem Ended.not_inTime {code : Int32} (ended : u.Ended code) (captured : u.captures s = true)
    (unended : (u.pipes s).isEnded = false) (later : Later u u')
    (now : ∀ time, (u'.pipes s).ended = some time → u.traffic.now ≤ time) : ¬u'.InTime s := by
  rintro ⟨deadline, time, due, read, early⟩
  rcases ended.2 with ⟨deadline', due', passed⟩ | all
  · obtain rfl : deadline' = deadline := Option.some.inj ((later.deadline due').symm.trans due)
    exact absurd early (Nat.not_lt_of_le (Nat.le_trans passed (now time read)))
  · rw [all s captured] at unended
    cases unended

structure Invariant (pid : UInt32) (u : Relay) : Prop where
  once : u.traffic.Once pid u.Ended
  pipes : ∀ s, (u.pipes s).Sound
  /-- What is not captured is not read. -/
  unread : ∀ s, u.captures s = false → (u.pipes s).lines = []
  lanes : u.lost = false → ∀ s, Lane (u.pipes s) (u.forwarding.receiver s) (u.said s)
  /-- The loop has ended only after the program. -/
  gone : u.forwarding.stage ≠ .looping →
    u.traffic.supervisor.state.isExited = true ∧ ∃ code, u.Ended code
  ends : u.code.isSome = true ↔ u.forwarding.stage = .finished
  result : ∀ result, u.code = some result → ∃ code, u.Ended code ∧ result = passOn code
  /-- Of a stream that has had its turn nothing is held, if its end was read in time. -/
  emptied : ∀ s, u.captures s = true → u.forwarding.stage.isPast s = true → u.lost = false →
    u.InTime s → (u.forwarding.receiver s).held = []

variable {pid : UInt32}

theorem invariant_opening (settings : Settings) (pid : UInt32) (stopTimeout : Duration) :
    Invariant pid (opening settings pid stopTimeout) where
  once := Traffic.once_opening settings pid _
  pipes _ := Pipe.sound_empty
  unread _ _ := rfl
  lanes _ s := by cases s <;> exact ⟨rfl, rfl⟩
  gone ended := absurd rfl ended
  ends := by simp [opening]
  result _ ended := by cases ended
  emptied _ _ past := by cases past

theorem captures_act (e : Traffic.Event) : (u.act e).captures = u.captures := by
  funext s
  exact congrArg s.isCaptured (u.traffic.settings_advance e)

theorem later_act (u : Relay) (e : Traffic.Event) : Later u (u.act e) where
  captures := captures_act e
  now := Nat.le.intro (u.traffic.now_advance e).symm
  exit _ same := same
  ended _ _ same := same

theorem ended_of_report {p : UInt32} {code : Int32} (allowed : u.allows (.report p code) = true) :
    u.Ended code := by
  simp only [allows, Option.any_eq_true, Bool.and_eq_true, Bool.or_eq_true, decide_eq_true_eq]
    at allowed
  obtain ⟨⟨_, time⟩, exit, rfl, done | passed⟩ := allowed
  · exact ⟨⟨time, exit⟩, .inr (everywhere_eq_true_iff.mp done)⟩
  · exact ⟨⟨time, exit⟩, .inl ⟨_, by rw [deadline?, exit]; rfl, passed⟩⟩

theorem Invariant.act (inv : Invariant pid u) {e : Traffic.Event}
    (admitted : u.traffic.admits e = true) (allowed : u.allows e = true) :
    Invariant pid (u.act e) := by
  have later := later_act u e
  have noStart : e ≠ .start := by
    rintro rfl
    cases allowed
  have reports (code : Int32) (report : e = .report pid code) : u.Ended code :=
    ended_of_report (report ▸ allowed)
  refine { inv with
    once := ?_, unread := ?_, gone := fun left => ?_, result := fun result finished => ?_,
    emptied := ?_ }
  · exact (inv.once.advance admitted noStart reports).mono fun code ended => ended.later later
  · rw [later.captures]
    exact inv.unread
  · obtain ⟨exited, code, known⟩ := inv.gone left
    exact ⟨inv.once.exited_advance admitted exited, code, known.later later⟩
  · obtain ⟨code, known, same⟩ := inv.result result finished
    exact ⟨code, known.later later, same⟩
  · rw [later.captures]
    exact inv.emptied

theorem Invariant.ask (inv : Invariant pid u) (timeouts : List (Option Duration)) :
    Invariant pid (u.ask timeouts) := by
  induction timeouts generalizing u with
  | nil => exact inv
  | cons timeout timeouts ih => exact ih (inv.act (e := .stop timeout) rfl rfl)

/-- A pipe changes, and lines may be sent. -/
theorem Invariant.update (inv : Invariant pid u) {p : Pipe} {f : Forwarding} {lost : Bool}
    (sound : p.Sound) (unread : u.captures s = false → p.lines = [])
    (ended : ∀ time, (u.pipes s).ended = some time → p.ended = some time)
    (same : f.stage = u.forwarding.stage)
    (lanes : lost = false → u.lost = false ∧
      ∀ s', Lane (Function.update u.pipes s p s') (f.receiver s') (u.said s'))
    (emptied : ∀ s', u.captures s' = true → u.forwarding.stage.isPast s' = true → lost = false →
      { u.setPipe s p with forwarding := f, lost }.InTime s' → (f.receiver s').held = []) :
    Invariant pid { u.setPipe s p with forwarding := f, lost } := by
  have later : Later u { u.setPipe s p with forwarding := f, lost } :=
    { captures := rfl
      now := Nat.le_refl _
      exit := fun _ same => same
      ended := (Function.forall_update_iff u.pipes
        (p := fun s' p => ∀ time, (u.pipes s').ended = some time → p.ended = some time)).mpr
          ⟨ended, fun _ _ _ read => read⟩ }
  refine ⟨?_, ?_, ?_, fun kept => (lanes kept).2, fun left => ?_, same ▸ inv.ends, ?_, ?_⟩
  · exact inv.once.mono fun code known => known.later later
  · exact (Function.forall_update_iff u.pipes (p := fun _ p => p.Sound)).mpr
      ⟨sound, fun s' _ => inv.pipes s'⟩
  · exact (Function.forall_update_iff u.pipes
      (p := fun s' p => u.captures s' = false → p.lines = [])).mpr
        ⟨unread, fun s' _ => inv.unread s'⟩
  · obtain ⟨exited, code, known⟩ := inv.gone (same ▸ left)
    exact ⟨exited, code, known.later later⟩
  · intro result finished
    obtain ⟨code, known, same⟩ := inv.result result finished
    exact ⟨code, known.later later, same⟩
  · exact fun s' captured past => emptied s' captured (same ▸ past)

theorem Invariant.setPipe (inv : Invariant pid u) {p : Pipe} (sound : p.Sound)
    (lines : p.lines = (u.pipes s).lines) (ended : p.ended = (u.pipes s).ended) :
    Invariant pid (u.setPipe s p) := by
  change Invariant pid { u.setPipe s p with forwarding := u.forwarding, lost := u.lost }
  have reads (s' : Source) : ((u.setPipe s p).pipes s').ended = (u.pipes s').ended :=
    (Function.forall_update_iff u.pipes (p := fun s' p => p.ended = (u.pipes s').ended)).mpr
      ⟨ended, fun _ _ => rfl⟩ s'
  refine inv.update sound ?_ ?_ rfl ?_ ?_
  · exact fun uncaptured => lines.trans (inv.unread s uncaptured)
  · exact fun time read => ended.trans read
  · intro kept
    have here := inv.lanes kept s
    refine ⟨kept, (Function.forall_update_iff u.pipes
      (p := fun s' p => Lane p (u.forwarding.receiver s') (u.said s'))).mpr ⟨?_, ?_⟩⟩
    · exact ⟨here.kept, here.passed.trans lines.symm⟩
    · exact fun s' _ => inv.lanes kept s'
  · rintro s' captured past kept ⟨deadline, time, due, read, early⟩
    exact inv.emptied s' captured past kept
      ⟨deadline, time, due, (reads s').symm.trans read, early⟩

theorem kept_of_deliver {sent : Pipe × List String} (kept : (u.deliver s sent).lost = false)
    (s' : Source) : u.lost = false ∧ ((u.forwarding.send s sent.2).receiver s').missed = 0 := by
  simp only [deliver, Bool.or_eq_false_iff, decide_eq_false_iff_not, not_not] at kept
  obtain ⟨⟨before, output⟩, errors⟩ := kept
  cases s' with
  | output => exact ⟨before, output⟩
  | errors => exact ⟨before, errors⟩

/-- What was read is sent at once. If the loop has ended already it is too late for it. -/
theorem Invariant.deliver (inv : Invariant pid u) {sent : Pipe × List String}
    (captured : u.captures s = true) (unended : (u.pipes s).isEnded = false) (sound : sent.1.Sound)
    (lines : sent.1.lines = (u.pipes s).lines ++ sent.2)
    (now : ∀ time, sent.1.ended = some time → u.traffic.now ≤ time) :
    Invariant pid (u.deliver s sent) := by
  have unread : (u.pipes s).ended = none := Option.isNone_iff_eq_none.mp (by
    simpa [Pipe.isEnded] using unended)
  refine inv.update (f := u.forwarding.send s sent.2) sound ?_ ?_ ?_ ?_ ?_
  · simp [captured]
  · simp [unread]
  · exact Forwarding.stage_send _ s _
  · intro kept
    have before := (kept_of_deliver kept .output).1
    refine ⟨before, (Function.forall_update_iff u.pipes
      (p := fun s' p => Lane p ((u.forwarding.send s sent.2).receiver s') (u.said s'))).mpr
        ⟨?_, fun s' other => ?_⟩⟩
    · have room := (kept_of_deliver kept s).2
      rw [Forwarding.receiver_send_self] at room ⊢
      exact (inv.lanes before s).push room lines
    · have room := (kept_of_deliver kept s').2
      rw [Forwarding.receiver_send_of_ne other] at room ⊢
      exact (inv.lanes before s').push room (List.append_nil _).symm
  · intro s' captured' past kept inTime
    have room := (kept_of_deliver kept s').2
    by_cases here : s' = s
    · subst here
      have left : u.forwarding.stage ≠ .looping := fun looping => by
        rw [looping] at past
        cases past
      obtain ⟨_, code, known⟩ := inv.gone left
      refine absurd inTime (known.not_inTime captured' unended ?_ fun time read => now time ?_)
      · exact ⟨rfl, Nat.le_refl _, fun _ same => same,
          (Function.forall_update_iff u.pipes
            (p := fun s p => ∀ time, (u.pipes s).ended = some time → p.ended = some time)).mpr
              ⟨by simp [unread], fun _ _ _ read => read⟩⟩
      · rw [← read]
        exact (congrArg Pipe.ended (u.pipes_setPipe_self s' sent.1)).symm
    · obtain ⟨deadline, time, due, read, early⟩ := inTime
      have same := u.pipes_setPipe_of_ne here sent.1
      have before : u.InTime s' := ⟨deadline, time, due, same ▸ read, early⟩
      rw [Forwarding.receiver_send_of_ne here] at room ⊢
      simp [(Broadcast.Receiver.push_kept room).2,
        inv.emptied s' captured' past (kept_of_deliver kept s').1 before]

theorem Invariant.speak (inv : Invariant pid u) {b : Forwarding.Branch}
    (terminal : b = .ended → u.traffic.supervisor.state.isTerminal = true) :
    Invariant pid (u.speak b) := by
  have later : Later u (u.speak b) :=
    ⟨rfl, Nat.le_refl _, fun _ same => same, fun _ _ same => same⟩
  have picks := u.forwarding.picks_advance b
  have gone : (u.forwarding.advance b).1.stage ≠ .looping →
      u.traffic.supervisor.state.isExited = true ∧ ∃ code, u.Ended code := by
    intro left
    by_cases looping : u.forwarding.stage = .looping
    · obtain ⟨exited, code, known, _⟩ := inv.once.recorded (terminal (picks.leaves looping left))
      exact ⟨exited, code, known⟩
    · exact inv.gone looping
  refine ⟨inv.once.mono fun code known => known.later later, inv.pipes, inv.unread, ?_,
    fun left => ?_, ?_, ?_, ?_⟩
  · intro kept s
    obtain ⟨none, passed⟩ := inv.lanes kept s
    obtain ⟨none', passed'⟩ := picks.passes none
    refine ⟨none', ?_⟩
    rw [← passed'] at passed
    exact (List.append_assoc _ _ _).trans passed
  · obtain ⟨exited, code, known⟩ := gone left
    exact ⟨exited, code, known.later later⟩
  · simp only [Relay.speak]
    split <;> simp [*]
  · intro result finished
    simp only [Relay.speak] at finished
    split at finished
    next past =>
      obtain ⟨exited, _⟩ := gone (by simp [past])
      obtain ⟨_, code, known, info⟩ := inv.once.recorded (by simp [State.isTerminal, exited])
      refine ⟨code, known.later later, ?_⟩
      rw [← Option.some.inj finished, outcome, info]
      rfl
    next => cases finished
  · intro s captured past kept inTime
    cases before : u.forwarding.stage.isPast s with
    | true =>
      obtain ⟨none, passed⟩ := picks.passes (inv.lanes kept s).kept
      rw [inv.emptied s captured before kept inTime] at passed
      exact (List.append_eq_nil_iff.mp passed).2
    | false => exact (picks.turned before past).2.2 (inv.lanes kept s).kept

/-- The program ends, and the wait for the readers begins. -/
theorem Invariant.exit (inv : Invariant pid u) (alive : u.exit = none) (code : Int32) :
    Invariant pid { u with exit := some (code, u.traffic.now) } := by
  have later : Later u { u with exit := some (code, u.traffic.now) } :=
    ⟨rfl, Nat.le_refl _, fun _ ended => by simp [alive] at ended, fun _ _ read => read⟩
  have alive' {code : Int32} : ¬u.Ended code := by
    rintro ⟨⟨_, ended⟩, _⟩
    rw [alive] at ended
    cases ended
  refine ⟨inv.once.mono fun code known => known.later later, inv.pipes, inv.unread, inv.lanes,
    fun left => ?_, inv.ends, fun result finished => ?_, fun s _ past => ?_⟩
  · obtain ⟨_, _, known⟩ := inv.gone left
    exact absurd known alive'
  · obtain ⟨_, known, _⟩ := inv.result result finished
    exact absurd known alive'
  · obtain ⟨_, _, known⟩ := inv.gone fun looping => by
      rw [looping] at past
      cases past
    exact absurd known alive'

theorem Invariant.advance (inv : Invariant pid u) (e : Event) (admitted : u.admits e = true) :
    Invariant pid (u.advance e) := by
  cases e with
  | act e =>
    obtain ⟨admitted, allowed⟩ := by simpa [admits] using admitted
    exact inv.act admitted allowed
  | write s bytes =>
    have isOpen : (u.pipes s).closed = none := by simpa [admits] using admitted
    exact inv.setPipe ((inv.pipes s).write isOpen bytes) rfl rfl
  | close s => exact inv.setPipe ((inv.pipes s).close u.traffic.now) rfl rfl
  | exit code => exact inv.exit (by simpa [admits] using admitted) code
  | read s count =>
    obtain ⟨captured, unended⟩ : u.captures s = true ∧ (u.pipes s).isEnded = false := by
      simpa [admits] using admitted
    refine inv.deliver captured unended ((inv.pipes s).take unended count)
      ((inv.pipes s).lines_take unended count) fun time read => ?_
    have read : (u.pipes s).ended = some time := read
    simp [Pipe.isEnded, read] at unended
  | finish s =>
    obtain ⟨captured, atEnd⟩ := by simpa [admits] using admitted
    have unended : (u.pipes s).isEnded = false := by
      simp only [Pipe.isAtEnd, Bool.and_eq_true, Bool.not_eq_true'] at atEnd
      exact atEnd.1.1
    exact inv.deliver captured unended ((inv.pipes s).finish atEnd _) (Pipe.lines_finish unended _)
      fun time read => Nat.le_of_eq (Option.some.inj read)
  | pick b =>
    simp only [admits, Bool.and_eq_true] at admitted
    obtain ⟨_, terminal⟩ := admitted
    exact (inv.speak fun ended => by simpa [ended] using terminal).ask _

/-- What every step keeps holds after every run. -/
theorem Invariant.execute (inv : Invariant pid u) (events : List Event)
    (admitted : u.admitsAll events = true) : Invariant pid (u.execute events) := by
  induction events generalizing u with
  | nil => exact inv
  | cons e events ih =>
    obtain ⟨first, later⟩ : u.admits e = true ∧ (u.advance e).admitsAll events = true := by
      simpa [admitsAll] using admitted
    exact ih (inv.advance e first) later

theorem settings_ask (u : Relay) (timeouts : List (Option Duration)) :
    (u.ask timeouts).traffic.supervisor.settings = u.traffic.supervisor.settings := by
  induction timeouts generalizing u with
  | nil => rfl
  | cons timeout timeouts ih =>
    exact (ih (u.act (.stop timeout))).trans (u.traffic.settings_advance _)

theorem settings_advance (u : Relay) (e : Event) :
    (u.advance e).traffic.supervisor.settings = u.traffic.supervisor.settings := by
  cases e with
  | act e => exact u.traffic.settings_advance e
  | pick b => exact (u.speak b).settings_ask _
  | write | close | exit | read | finish => rfl

theorem settings_execute (u : Relay) (events : List Event) :
    (u.execute events).traffic.supervisor.settings = u.traffic.supervisor.settings := by
  induction events generalizing u with
  | nil => rfl
  | cons e events ih => exact (ih _).trans (u.settings_advance e)

/-- What `run` does by itself as time passes. -/
def Event.isOwn : Event → Bool
  | .act (.report _ _) | .act (.take _) | .act .complete | .act (.elapse _) => true
  | .read _ _ | .finish _ => true
  | .pick b => b ≠ .interrupt
  | _ => false

inductive Goes (u : Relay) : Relay → Prop where
  | step (e : Event) (own : e.isOwn = true) (admitted : u.admits e = true) : Goes u (u.advance e)

theorem Invariant.goes (inv : Invariant pid u) (goes : Relation.ReflTransGen Goes u u') :
    Invariant pid u' := by
  induction goes with
  | refl => exact inv
  | tail _ step ih =>
    cases step with
    | step e _ admitted => exact ih.advance e admitted

/-- The lines that were written to a stream, if they are captured. -/
def captured (settings : Settings) (u : Relay) (s : Source) : List String :=
  if s.isCaptured settings then LineReader.lines [(u.pipes s).written] else []

/-- The exit code of the program is on record. -/
def Recorded (pid : UInt32) (u : Relay) (code : Int32) : Prop :=
  (∃ time, u.exit = some (code, time)) ∧ u.traffic.supervisor.info = some ⟨pid, some code⟩

/-- The streams of the program are closed before the wait for their readers is over. -/
def Prompt (u : Relay) : Prop :=
  ∀ deadline, u.deadline? = some deadline → ∀ s, u.captures s = true →
    ∃ c, (u.pipes s).closed = some c ∧ c < deadline

/-- The readers keep up: of a stream that was closed before the wait for its reader was over, the end
was read by then. -/
def KeptUp (u : Relay) : Prop :=
  ∀ deadline, u.deadline? = some deadline → ∀ s, u.captures s = true →
    (∃ c, (u.pipes s).closed = some c ∧ c < deadline) → u.InTime s

theorem Invariant.recorded (inv : Invariant pid u)
    (terminal : u.traffic.supervisor.state.isTerminal = true) : ∃ code, u.Recorded pid code := by
  obtain ⟨_, code, ⟨exit, _⟩, info⟩ := inv.once.recorded terminal
  exact ⟨code, exit, info⟩

theorem Invariant.said_eq (inv : Invariant pid u) (kept : u.lost = false) (prompt : u.Prompt)
    (keptUp : u.KeptUp) (finished : u.code.isSome = true) (s : Source) :
    u.said s = u.captured u.traffic.supervisor.settings s := by
  have passed := (inv.lanes kept s).passed
  unfold captured
  split
  next captured =>
    have past := inv.ends.mp finished
    obtain ⟨_, _, ⟨_, exit⟩, _⟩ := inv.gone (by simp [past])
    have due : u.deadline? = some _ := congrArg (Option.map _) exit
    have inTime := keptUp _ due s captured (prompt _ due s captured)
    rw [inv.emptied s captured (by rw [past]; rfl) kept inTime, List.append_nil] at passed
    obtain ⟨_, time, _, read, _⟩ := inTime
    exact passed.trans ((inv.pipes s).lines_of_ended (Option.isSome_iff_exists.mpr ⟨time, read⟩))
  next uncaptured =>
    rw [inv.unread s (Bool.eq_false_iff.mpr uncaptured)] at passed
    exact (List.append_eq_nil_iff.mp passed).1

/-- A stream that is closed at once, but not read until the wait for its reader is over. -/
example :
    let u := (opening ⟨"", "/bin/server", "", .empty, false⟩ 7 (.ofSeconds 5 (by decide))).execute [
      .act .complete, .write .output [97, 10], .exit 0, .close .output, .act (.elapse 500),
      .act (.report 7 0), .act (.take (.ok 0)), .act .complete, .pick .ended, .pick .drain,
      .pick .drain, .read .output 2, .finish .output]
    u.code = some 0 ∧ (u.pipes .output).closed = some 0 ∧ u.said .output = [] := by
  decide +kernel

end Relay

end Overseer.CommandLine
