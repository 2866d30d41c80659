import Overseer.CommandLine.Forwarding
import Overseer.Supervisor
import Overseer.Proofs.Text.Lines

/-!
One stream of a program from the bytes that are written to it to the lines that are passed on: a
pipe, whose reader cuts what it reads into lines and sends them, and a receiver, from which they are
taken. As long as none is missed, the lines that were passed on and those that are held are the lines
that were sent.
-/
namespace Overseer

namespace LineReader

theorem lines_singleton (bytes : List UInt8) :
    lines [bytes] = (feed {} bytes).1 ++ (feed {} bytes).2.finish := by
  simp [lines_eq_lines_flatten]

end LineReader

/-- Nothing that is sent is missed as long as there is room for it. -/
theorem Broadcast.Receiver.push_kept {α : Type} {r : Receiver α} {items : List α}
    (kept : (r.push items).missed = 0) :
    r.missed = 0 ∧ r.push items = { r with held := r.held ++ items } := by
  obtain ⟨none, room⟩ :
      r.missed = 0 ∧ (r.held ++ items).length - r.capacity = 0 := Nat.add_eq_zero_iff.mp kept
  refine ⟨none, ?_⟩
  rw [push, room, List.drop_zero, Nat.add_zero]

namespace CommandLine

open Broadcast

def Source.isCaptured (settings : Settings) : Source → Bool
  | .output => true
  | .errors => settings.captureStderr

/-- A pipe, and what is known to the task that reads it. -/
structure Pipe where
  /-- The bytes that were read so far. -/
  read : List UInt8 := []
  unread : List UInt8 := []
  /-- When the last of those who could write to it went. -/
  closed : Option Nat := none
  reader : LineReader := {}
  /-- When the end was read. -/
  ended : Option Nat := none
  deriving DecidableEq, Repr

namespace Pipe

variable (p : Pipe)

def written : List UInt8 := p.read ++ p.unread

def write (bytes : List UInt8) : Pipe := { p with unread := p.unread ++ bytes }

def close (now : Nat) : Pipe := { p with closed := some now }

def take (count : Nat) : Pipe × List String :=
  let (lines, reader) := p.reader.feed (p.unread.take count)
  ({ p with read := p.read ++ p.unread.take count, unread := p.unread.drop count, reader }, lines)

def finish (now : Nat) : Pipe × List String :=
  ({ p with ended := some now }, p.reader.finish)

def isEnded : Bool := p.ended.isSome

def isAtEnd : Bool := !p.isEnded && p.unread.isEmpty && p.closed.isSome

def lines : List String :=
  (LineReader.feed {} p.read).1 ++ if p.isEnded then p.reader.finish else []

structure Sound : Prop where
  reader : (LineReader.feed {} p.read).2 = p.reader
  ended : p.isEnded = true → p.unread = [] ∧ p.closed.isSome = true

variable {p}

theorem sound_empty : Sound {} where
  reader := rfl
  ended := nofun

theorem Sound.write (sound : p.Sound) (isOpen : p.closed = none) (bytes : List UInt8) :
    (p.write bytes).Sound where
  reader := sound.reader
  ended done := by
    have closed := (sound.ended done).2
    rw [isOpen] at closed
    cases closed

theorem Sound.close (sound : p.Sound) (now : Nat) : (p.close now).Sound where
  reader := sound.reader
  ended done := ⟨(sound.ended done).1, rfl⟩

theorem feed_take (sound : p.Sound) (count : Nat) :
    LineReader.feed {} (p.read ++ p.unread.take count) =
      ((LineReader.feed {} p.read).1 ++ (p.take count).2, (p.take count).1.reader) := by
  rw [LineReader.feed_append, sound.reader]
  rfl

theorem Sound.take (sound : p.Sound) (unended : p.isEnded = false) (count : Nat) :
    (p.take count).1.Sound where
  reader := (congrArg Prod.snd (feed_take sound count)).trans rfl
  ended done := by
    have done : p.isEnded = true := done
    rw [unended] at done
    cases done

theorem Sound.finish (sound : p.Sound) (atEnd : p.isAtEnd = true) (now : Nat) :
    (p.finish now).1.Sound where
  reader := sound.reader
  ended _ := by
    obtain ⟨⟨_, empty⟩, closed⟩ := by simpa [isAtEnd] using atEnd
    exact ⟨empty, closed⟩

theorem Sound.lines_take (sound : p.Sound) (unended : p.isEnded = false) (count : Nat) :
    (p.take count).1.lines = p.lines ++ (p.take count).2 := by
  have fed : (LineReader.feed {} (p.take count).1.read).1 = _ :=
    congrArg Prod.fst (feed_take sound count)
  have unended' : (p.take count).1.isEnded = false := unended
  rw [lines, fed, unended', lines, unended]
  simp

theorem lines_finish (unended : p.isEnded = false) (now : Nat) :
    (p.finish now).1.lines = p.lines ++ (p.finish now).2 := by
  simp only [lines, unended]
  simp [finish, isEnded]

/-- Once the end was read, the lines that were sent are all that there are. -/
theorem Sound.lines_of_ended (sound : p.Sound) (done : p.isEnded = true) :
    p.lines = LineReader.lines [p.written] := by
  rw [lines, if_pos done, written, (sound.ended done).1, List.append_nil,
    LineReader.lines_singleton, sound.reader]

end Pipe

/-- The lines of a pipe that were sent are those that were passed on and those that are held. -/
structure Lane (p : Pipe) (r : Receiver String) (said : List String) : Prop where
  kept : r.missed = 0
  passed : said ++ r.held = p.lines

theorem Lane.push {p p' : Pipe} {r : Receiver String} {said items : List String}
    (lane : Lane p r said) (kept : (r.push items).missed = 0)
    (sent : p'.lines = p.lines ++ items) : Lane p' (r.push items) said where
  kept := kept
  passed := by
    rw [(Receiver.push_kept kept).2, sent, ← lane.passed, List.append_assoc]

namespace Forwarding

def linesOf : Source → List Effect → List String
  | .output, effects => effects.filterMap fun
    | .print line => some line
    | _ => none
  | .errors, effects => effects.filterMap fun
    | .complain line => some line
    | _ => none

def stopsOf (effects : List Effect) : List (Option Duration) :=
  effects.filterMap fun
    | .stop timeout => some timeout
    | _ => none

def Stage.isPast : Stage → Source → Bool
  | .looping, _ => false
  | .draining s, s' => s = .errors && s' = .output
  | .finished, _ => true

variable {f f' : Forwarding} {b : Branch} {s s' : Source} {effects : List Effect}

def send (f : Forwarding) : Source → List String → Forwarding
  | .output, lines => f.hear lines []
  | .errors, lines => f.hear [] lines

theorem receiver_send_self (f : Forwarding) (s : Source) (lines : List String) :
    (f.send s lines).receiver s = (f.receiver s).push lines := by
  cases s <;> rfl

theorem receiver_send_of_ne (other : s' ≠ s) (lines : List String) :
    (f.send s lines).receiver s' = (f.receiver s').push [] := by
  cases s <;> cases s' <;> first | rfl | exact absurd rfl other

@[simp] theorem stage_send (f : Forwarding) (s : Source) (lines : List String) :
    (f.send s lines).stage = f.stage := by
  cases s <;> rfl

@[simp] theorem receiver_setReceiver_self (f : Forwarding) (r : Receiver String) (s : Source) :
    (f.setReceiver r s).receiver s = r := by
  cases s <;> rfl

theorem receiver_setReceiver_of_ne (r : Receiver String) (other : s' ≠ s) :
    (f.setReceiver r s).receiver s' = f.receiver s' := by
  cases s <;> cases s' <;> first | rfl | exact absurd rfl other

@[simp] theorem stage_setReceiver (f : Forwarding) (r : Receiver String) (s : Source) :
    (f.setReceiver r s).stage = f.stage := by
  cases s <;> rfl

@[simp] theorem receiver_stage (f : Forwarding) (stage : Stage) (s : Source) :
    { f with stage }.receiver s = f.receiver s := by
  cases s <;> rfl

theorem linesOf_append (s : Source) (first later : List Effect) :
    linesOf s (first ++ later) = linesOf s first ++ linesOf s later := by
  cases s <;> exact List.filterMap_append

@[simp] theorem linesOf_pass_self (s : Source) (line : String) : linesOf s [s.pass line] = [line] := by
  cases s <;> rfl

theorem linesOf_pass_of_ne (other : s' ≠ s) (line : String) : linesOf s' [s.pass line] = [] := by
  cases s <;> cases s' <;> first | rfl | exact absurd rfl other

@[simp] theorem linesOf_after (s s' : Source) : linesOf s s'.after.2 = [] := by
  cases s <;> cases s' <;> rfl

/-- All that may come of picking a branch. -/
inductive Picks (f : Forwarding) : Branch → Forwarding → List Effect → Prop where
  | idle (b : Branch) : Picks f b f []
  | line (b : Branch) (s : Source) (line : String) (rest : List String) (unended : b ≠ .ended)
      (waits : f.stage.isPast s = false) (kept : (f.receiver s).missed = 0)
      (held : (f.receiver s).held = line :: rest) :
      Picks f b (f.setReceiver { f.receiver s with held := rest } s) [s.pass line]
  | warn (b : Branch) (s : Source) (unended : b ≠ .ended) (looping : f.stage = .looping)
      (missed : (f.receiver s).missed ≠ 0) :
      Picks f b (f.setReceiver { f.receiver s with missed := 0 } s)
        [.log (s.warning (f.receiver s).missed)]
  | interrupt (looping : f.stage = .looping) : Picks f .interrupt f.interrupt.1 f.interrupt.2
  | ended (looping : f.stage = .looping) : Picks f .ended { f with stage := .draining .output } []
  | drained (s : Source) (stage : f.stage = .draining s) (kept : (f.receiver s).missed = 0)
      (empty : (f.receiver s).held = []) : Picks f .drain { f with stage := s.after.1 } s.after.2
  /-- Lines that are left are left behind since others were missed. -/
  | overrun (s : Source) (stage : f.stage = .draining s) (missed : (f.receiver s).missed ≠ 0) :
      Picks f .drain { f.setReceiver { f.receiver s with missed := 0 } s with stage := s.after.1 }
        s.after.2

theorem picks_receive (looping : f.stage = .looping) (unended : b ≠ .ended) (s : Source) :
    Picks f b (f.receive s).1 (f.receive s).2 := by
  unfold receive Receiver.receive?
  by_cases kept : (f.receiver s).missed = 0
  · rw [if_pos kept]
    cases held : (f.receiver s).held with
    | nil => exact .idle b
    | cons line rest => exact .line b s line rest unended (by rw [looping]; rfl) kept held
  · rw [if_neg kept]
    exact .warn b s unended looping kept

theorem picks_drain (stage : f.stage = .draining s) :
    Picks f .drain (f.drain s).1 (f.drain s).2 := by
  unfold drain Receiver.receive?
  by_cases kept : (f.receiver s).missed = 0
  · rw [if_pos kept]
    cases held : (f.receiver s).held with
    | nil => exact .drained s stage kept held
    | cons line rest =>
      exact .line .drain s line rest (by simp) (by rw [stage]; cases s <;> rfl) kept held
  · rw [if_neg kept]
    exact .overrun s stage kept

theorem picks_advance (f : Forwarding) (b : Branch) :
    Picks f b (f.advance b).1 (f.advance b).2 := by
  cases stage : f.stage with
  | looping =>
    cases b <;> simp only [advance, stage]
    case output => exact picks_receive stage (by simp) .output
    case errors => exact picks_receive stage (by simp) .errors
    case interrupt => exact .interrupt stage
    case ended => exact .ended stage
    case drain => exact .idle .drain
  | draining s =>
    cases b <;> simp only [advance, stage]
    case drain => exact picks_drain stage
    all_goals exact .idle _
  | finished =>
    simp only [advance, stage]
    exact .idle b

/-- Whatever is picked, lines are passed on in the order in which they are held. -/
theorem Picks.passes (picks : Picks f b f' effects) (kept : (f.receiver s).missed = 0) :
    (f'.receiver s).missed = 0 ∧
      linesOf s effects ++ (f'.receiver s).held = (f.receiver s).held := by
  have silent : linesOf s [] = [] := by cases s <;> rfl
  cases picks with
  | idle | ended => exact ⟨kept, by rw [silent]; rfl⟩
  | line _ s' line rest _ _ _ held =>
    by_cases same : s = s'
    · subst same
      simp [kept, held]
    · rw [receiver_setReceiver_of_ne _ same, linesOf_pass_of_ne same]
      exact ⟨kept, rfl⟩
  | warn _ s' _ _ missed =>
    have other : s ≠ s' := fun same => missed (same ▸ kept)
    rw [receiver_setReceiver_of_ne _ other]
    exact ⟨kept, by cases s <;> cases s' <;> rfl⟩
  | interrupt => cases s <;> exact ⟨kept, rfl⟩
  | drained s' => exact ⟨by simpa using kept, by simp⟩
  | overrun s' _ missed =>
    have other : s ≠ s' := fun same => missed (same ▸ kept)
    simp [receiver_setReceiver_of_ne _ other, kept]

/-- Nothing comes back from the end, and a stream that has had its turn is left alone. -/
theorem Picks.isPast (picks : Picks f b f' effects) (past : f.stage.isPast s = true) :
    f'.stage.isPast s = true := by
  cases picks with
  | idle => exact past
  | line => rwa [stage_setReceiver]
  | warn _ _ _ looping | interrupt looping | ended looping => simp [looping, Stage.isPast] at past
  | drained s' stage | overrun s' stage =>
    cases s' <;> cases s <;> simp [stage, Stage.isPast, Source.after] at past ⊢

/-- The loop ends only as it is told to. -/
theorem Picks.leaves (picks : Picks f b f' effects) (looping : f.stage = .looping)
    (left : f'.stage ≠ .looping) : b = .ended := by
  cases picks with
  | ended => rfl
  | idle | interrupt => exact absurd looping left
  | line | warn => exact absurd looping (by simpa using left)
  | drained _ stage | overrun _ stage => simp [looping] at stage

theorem Picks.left (picks : Picks f b f' effects) (left : f.stage ≠ .looping) :
    f'.stage ≠ .looping := by
  cases picks with
  | idle => exact left
  | line => rwa [stage_setReceiver]
  | warn _ _ _ looping | interrupt looping | ended looping => exact absurd looping left
  | drained s | overrun s => cases s <;> simp [Source.after]

/-- A stream has had its turn when nothing is left of it or lines were missed. -/
theorem Picks.turned (picks : Picks f b f' effects) (waits : f.stage.isPast s = false)
    (past : f'.stage.isPast s = true) :
    b = .drain ∧ f.stage = .draining s ∧ ((f.receiver s).missed = 0 → (f'.receiver s).held = []) := by
  cases picks with
  | idle | line | warn | interrupt => simp_all [Stage.isPast, Forwarding.interrupt]
  | ended => cases s <;> cases past
  | drained s' stage kept empty =>
    cases s' <;> cases s <;> simp_all [Stage.isPast, Source.after]
  | overrun s' stage missed =>
    cases s' <;> cases s <;> simp_all [Stage.isPast, Source.after]

/-- Nothing but an interrupt asks for a stop. -/
theorem Picks.keeps (picks : Picks f b f' effects) (other : b ≠ .interrupt) :
    stopsOf effects = [] ∧ f'.interrupts = f.interrupts ∧ f'.stopTimeout = f.stopTimeout := by
  cases picks with
  | idle | ended => exact ⟨rfl, rfl, rfl⟩
  | line _ s | warn _ s | drained s | overrun s => cases s <;> exact ⟨rfl, rfl, rfl⟩
  | interrupt => exact absurd rfl other

end Forwarding

/-- The exit code of `run` once its supervisor has nothing more to do. -/
def outcome (s : Supervisor) : UInt8 :=
  passOn ((s.info.bind (·.exitCode)).getD (-1))

end CommandLine

end Overseer
