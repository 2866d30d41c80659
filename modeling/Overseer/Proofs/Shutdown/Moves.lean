import Overseer.Shutdown.Listener

/-!
What a step of a listener can be, opened once: each way to go on has its guards, and all other
events leave the listener as it is.
-/
namespace Overseer.Shutdown.Listener

/-- The listener waits for a connection or a request, or is about to do so. -/
def Phase.isListening : Phase → Bool
  | .accepting | .serving _ _ | .pausing _ => true
  | .acknowledging _ _ | .finished _ => false

/-- A request was read, and the listener acts on it or has done so. -/
def Phase.isAnswering : Phase → Bool
  | .acknowledging _ _ | .finished .shutdownRequested => true
  | _ => false

theorem Phase.not_isAnswering {phase : Phase} (listening : phase.isListening = true) :
    phase.isAnswering ≠ true := by
  cases phase with
  | accepting | serving | pausing => exact Bool.false_ne_true
  | acknowledging | finished => cases listening

theorem outcome?_eq_some_iff (l : Listener) (o : ListenOutcome) :
    l.outcome? = some o ↔ l.phase = .finished o := by
  obtain ⟨phase, _⟩ := l
  cases phase <;> simp [outcome?]

theorem outcome?_of_isAnswering {l : Listener} (answering : l.phase.isAnswering = true)
    {o : ListenOutcome} (ended : l.outcome? = some o) : o = .shutdownRequested := by
  rw [(outcome?_eq_some_iff l o).mp ended] at answering
  cases o with
  | shutdownRequested => rfl
  | cancelled => cases answering

@[simp] theorem phase_enter (l : Listener) (phase : Phase) : (l.enter phase).phase = phase := rfl

@[simp] theorem stopping_enter (l : Listener) (phase : Phase) :
    (l.enter phase).stopping = l.stopping := rfl

@[simp] theorem polling_enter (l : Listener) (phase : Phase) :
    (l.enter phase).polling = false := rfl

theorem leaves_of_free {l : Listener} (free : l.stopping = false) : l.leaves = false := by
  rw [leaves, free, Bool.false_and]

theorem step_received {l : Listener} {c : Nat} {reader : RequestReader}
    (phase : l.phase = .serving c reader) (stays : l.leaves = false) (bytes : List UInt8) :
    l.step (.received bytes) =
      match reader.feed bytes with
      | some next => ({ l with phase := .serving c next }, [])
      | none => (l.enter (.acknowledging c acknowledgementLine), [.acknowledge c]) := by
  simp only [step, phase, await, stays]
  rfl

/-- A stop is remembered, and changes nothing else. -/
theorem step_stopped (l : Listener) :
    l.step .stopped = ({ l with stopping := l.stopping || l.outcome?.isNone }, []) := by
  obtain ⟨phase, stopping, polling⟩ := l
  cases phase <;> simp [step, outcome?]

def heeds (l : Listener) (e : Event) : Bool :=
  match l.phase, e with
  | .accepting, .accepted _ | .accepting, .acceptFailed _ => true
  | .serving _ _, .received _ | .serving _ _, .ended => true
  | .pausing _, .resumed => true
  | .acknowledging _ _, .wrote _ | .acknowledging _ _, .writeFailed => true
  | .accepting, .woken | .serving _ _, .woken => true
  | .accepting, .pended | .serving _ _, .pended => true
  | .finished _, .stopped => false
  | _, .stopped => true
  | _, _ => false

def Phase.isWaiting : Phase → Bool
  | .accepting | .serving _ _ => true
  | .pausing _ | .acknowledging _ _ | .finished _ => false

inductive Move (l : Listener) : Event → Listener → List Effect → Prop where
  | stay (e : Event) (ignored : l.heeds e = false) : Move l e l []
  | stop (unfinished : l.outcome? = none) : Move l .stopped { l with stopping := true } []
  | look (waits : l.phase.isWaiting = true) (free : l.stopping = false) :
      Move l .woken { l with polling := true } []
  | pend (waits : l.phase.isWaiting = true) : Move l .pended { l with polling := false } []
  | accept (c : Nat) (phase : l.phase = .accepting) (stays : l.leaves = false) :
      Move l (.accepted c) (l.enter (.serving c {})) []
  | pause (now : Nat) (phase : l.phase = .accepting) (stays : l.leaves = false) :
      Move l (.acceptFailed now) (l.enter (.pausing (now + acceptPause))) []
  | leave (e : Event) (phase : l.phase = .accepting) (stopping : l.stopping = true) :
      Move l e (l.enter (.finished .cancelled)) [.release]
  | read (c : Nat) (reader next : RequestReader) (bytes : List UInt8)
      (phase : l.phase = .serving c reader) (stays : l.leaves = false)
      (goesOn : reader.feed bytes = some next) :
      Move l (.received bytes) { l with phase := .serving c next } []
  | request (c : Nat) (reader : RequestReader) (bytes : List UInt8)
      (phase : l.phase = .serving c reader) (stays : l.leaves = false)
      (complete : reader.feed bytes = none) :
      Move l (.received bytes) (l.enter (.acknowledging c acknowledgementLine)) [.acknowledge c]
  | next (c : Nat) (reader : RequestReader) (phase : l.phase = .serving c reader)
      (stays : l.leaves = false) : Move l .ended (l.enter .accepting) [.close c]
  | abandon (e : Event) (c : Nat) (reader : RequestReader) (phase : l.phase = .serving c reader)
      (stopping : l.stopping = true) :
      Move l e (l.enter (.finished .cancelled)) [.close c, .release]
  | resume (due : Nat) (phase : l.phase = .pausing due) :
      Move l .resumed (l.enter .accepting) []
  | write (c n : Nat) (rest : List UInt8) (phase : l.phase = .acknowledging c rest)
      (more : n < rest.length) :
      Move l (.wrote n) (l.enter (.acknowledging c (rest.drop n))) [.write c (rest.take n)]
  | answer (c n : Nat) (rest : List UInt8) (phase : l.phase = .acknowledging c rest)
      (all : rest.length ≤ n) :
      Move l (.wrote n) (l.enter (.finished .shutdownRequested))
        [.write c rest, .callBack, .close c, .release]
  | giveUp (c : Nat) (rest : List UInt8) (phase : l.phase = .acknowledging c rest) :
      Move l .writeFailed (l.enter (.finished .shutdownRequested))
        [.callBack, .close c, .release]

theorem step_move (l : Listener) (e : Event) : Move l e (l.step e).1 (l.step e).2 := by
  obtain ⟨phase, stopping, polling⟩ := l
  cases phase with
  | accepting =>
    cases stopping <;> cases polling <;> cases e <;> try exact .stay _ rfl
    case false.false.accepted c | false.true.accepted c | true.true.accepted c =>
      exact .accept c rfl rfl
    case false.false.acceptFailed now | false.true.acceptFailed now | true.true.acceptFailed now =>
      exact .pause now rfl rfl
    case false.false.woken | false.true.woken => exact .look rfl rfl
    all_goals first | exact .stop rfl | exact .pend rfl | exact .leave _ rfl rfl
  | serving c reader =>
    cases stopping <;> cases polling <;> cases e <;> try exact .stay _ rfl
    case false.false.received bytes | false.true.received bytes | true.true.received bytes =>
      cases fed : reader.feed bytes with
      | some next => simpa [step, await, leaves, fed] using Move.read c reader next bytes rfl rfl fed
      | none => simpa [step, await, leaves, fed] using Move.request c reader bytes rfl rfl fed
    case false.false.ended | false.true.ended | true.true.ended => exact .next c reader rfl rfl
    case false.false.woken | false.true.woken => exact .look rfl rfl
    all_goals first | exact .stop rfl | exact .pend rfl | exact .abandon _ c reader rfl rfl
  | pausing due =>
    cases e <;> try exact .stay _ rfl
    case resumed => exact .resume due rfl
    case stopped => exact .stop rfl
  | acknowledging c rest =>
    cases e <;> try exact .stay _ rfl
    case wrote n =>
      by_cases more : n < rest.length
      · simpa [step, more] using Move.write c n rest rfl more
      · simpa [step, more] using Move.answer c n rest rfl (by omega)
    case writeFailed => exact .giveUp c rest rfl
    case stopped => exact .stop rfl
  | finished o => cases e <;> exact .stay _ rfl

end Overseer.Shutdown.Listener
