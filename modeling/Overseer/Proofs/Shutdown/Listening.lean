import Mathlib.Data.List.Induction
import Overseer.Proofs.Shutdown.Moves
import Overseer.Proofs.Shutdown.Requests

/-!
A listener in any course of events: connections that send anything, accepts, reads and writes that
fail, and a stop at any moment, as also comes of dropping it. What it attends to is told by the
events alone. As long as it is not cancelled it follows this, and it answers the first request.
-/
namespace Overseer.Shutdown.Listener

/-- The listener after some events. -/
def after (l : Listener) (events : List Event) : Listener :=
  events.foldl (fun l e => (l.step e).1) l

/-- What it does in their course. -/
def deeds (l : Listener) : List Event → List Effect
  | [] => []
  | e :: events => (l.step e).2 ++ (l.step e).1.deeds events

theorem after_cons (l : Listener) (e : Event) (events : List Event) :
    l.after (e :: events) = (l.step e).1.after events := rfl

theorem deeds_cons (l : Listener) (e : Event) (events : List Event) :
    l.deeds (e :: events) = (l.step e).2 ++ (l.step e).1.deeds events := rfl

theorem after_append (l : Listener) (first later : List Event) :
    l.after (first ++ later) = (l.after first).after later :=
  List.foldl_append

theorem deeds_append (l : Listener) (first later : List Event) :
    l.deeds (first ++ later) = l.deeds first ++ (l.after first).deeds later := by
  induction first generalizing l with
  | nil => rfl
  | cons e events ih => simp [deeds, after, ih]

theorem after_concat (l : Listener) (events : List Event) (e : Event) :
    l.after (events ++ [e]) = ((l.after events).step e).1 :=
  after_append l events [e]

theorem deeds_concat (l : Listener) (events : List Event) (e : Event) :
    l.deeds (events ++ [e]) = l.deeds events ++ ((l.after events).step e).2 := by
  simp [deeds_append, deeds]

instance (stream : List UInt8) : Decidable (Requests stream) :=
  inferInstanceAs (Decidable (∃ line ∈ completeLines stream, isRequest line = true))

/-- What a listener is to attend to that is not stopped: a connection that may come, or the one that
it serves with all that was read from it, and whether a poll of this is under way; and the first
connection that sent a request. -/
inductive Attention where
  | idle (polled : Bool)
  | pausing
  | serving (connection : Nat) (bytes : List UInt8) (polled : Bool)
  | asked (connection : Nat)

namespace Attention

def next : Attention → Event → Attention
  | .idle _, .accepted c => .serving c [] false
  | .idle _, .acceptFailed _ => .pausing
  | .idle _, .woken => .idle true
  | .idle _, .pended => .idle false
  | .pausing, .resumed => .idle false
  | .serving c bytes polled, .received more =>
    if Requests (bytes ++ more) then .asked c else .serving c (bytes ++ more) polled
  | .serving _ _ _, .ended => .idle false
  | .serving c bytes _, .woken => .serving c bytes true
  | .serving c bytes _, .pended => .serving c bytes false
  | a, _ => a

def isPolled : Attention → Bool
  | .idle polled | .serving _ _ polled => polled
  | .pausing | .asked _ => false

end Attention

def attention (events : List Event) : Attention :=
  events.foldl Attention.next (.idle false)

/-- A connection was accepted, and a request was read from it before it ended. Nobody asked before. -/
def Asked (events : List Event) (c : Nat) : Prop := attention events = .asked c

def writtenTo (c : Nat) (log : List Effect) : List UInt8 :=
  (log.filterMap fun
    | .write d bytes => if d = c then some bytes else none
    | _ => none).flatten

theorem attention_append (events more : List Event) :
    attention (events ++ more) = more.foldl Attention.next (attention events) :=
  List.foldl_append

theorem attention_concat (events : List Event) (e : Event) :
    attention (events ++ [e]) = (attention events).next e :=
  attention_append events [e]

/-- Who asked first goes on to be the one. -/
theorem Asked.append {events : List Event} {c : Nat} (asked : Asked events c)
    (more : List Event) : Asked (events ++ more) c := by
  rw [Asked, attention_append, show attention events = _ from asked]
  induction more with
  | nil => rfl
  | cons e more ih => exact ih

/-- How a listener stands to what it is to attend to. -/
inductive Follows (l : Listener) : Attention → Prop where
  | idle (phase : l.phase = .accepting) : Follows l (.idle l.polling)
  | pausing (due : Nat) (phase : l.phase = .pausing due) (unpolled : l.polling = false) :
      Follows l .pausing
  | serving (c : Nat) (bytes : List UInt8) (reader : RequestReader)
      (phase : l.phase = .serving c reader) (held : RequestReader.feed {} bytes = some reader) :
      Follows l (.serving c bytes l.polling)
  | acknowledging (c : Nat) (rest : List UInt8) (phase : l.phase = .acknowledging c rest) :
      Follows l (.asked c)
  | answered (c : Nat) (phase : l.phase = .finished .shutdownRequested) : Follows l (.asked c)

namespace Follows

variable {l : Listener} {a : Attention}

theorem of_accepting (follows : Follows l a) (phase : l.phase = .accepting) :
    a = .idle l.polling := by
  cases follows <;> simp_all

theorem of_pausing (follows : Follows l a) {due : Nat} (phase : l.phase = .pausing due) :
    a = .pausing ∧ l.polling = false := by
  cases follows <;> simp_all

theorem of_serving (follows : Follows l a) {c : Nat} {reader : RequestReader}
    (phase : l.phase = .serving c reader) :
    ∃ bytes, RequestReader.feed {} bytes = some reader ∧ a = .serving c bytes l.polling := by
  cases follows <;> simp_all

theorem of_acknowledging (follows : Follows l a) {c : Nat} {rest : List UInt8}
    (phase : l.phase = .acknowledging c rest) : a = .asked c := by
  cases follows <;> simp_all

theorem isPolled (follows : Follows l a) (listening : l.phase.isListening = true) :
    a.isPolled = l.polling := by
  cases follows with
  | idle | serving => rfl
  | pausing _ _ unpolled => exact unpolled.symm
  | acknowledging _ _ phase | answered _ phase =>
    rw [phase] at listening
    cases listening

theorem isListening (follows : Follows l a) (unasked : ∀ c, a ≠ .asked c) :
    l.phase.isListening = true := by
  cases follows with
  | idle phase | pausing _ phase | serving _ _ _ phase => rw [phase]; rfl
  | acknowledging c | answered c => exact absurd rfl (unasked c)

theorem isAnswering (follows : Follows l a) {c : Nat} (asked : a = .asked c) :
    l.phase.isAnswering = true := by
  cases follows with
  | acknowledging _ _ phase | answered _ phase => rw [phase]; rfl
  | idle | pausing | serving => cases asked

/-- Nothing comes of an event to a listener of which nothing comes to what it attends to. -/
theorem next_of_not_heeds (follows : Follows l a) {e : Event} (ignored : l.heeds e = false) :
    a.next e = a := by
  cases follows with
  | idle phase | pausing _ phase | serving _ _ _ phase =>
    cases e <;> first | rfl | simp [heeds, phase] at ignored
  | acknowledging | answered => rfl

/-- A wait is polled or is not polled any more. -/
theorem poll (follows : Follows l a) (waits : l.phase.isWaiting = true) :
    Follows { l with polling := true } (a.next .woken) ∧
      Follows { l with polling := false } (a.next .pended) := by
  cases follows with
  | idle phase => exact ⟨.idle phase, .idle phase⟩
  | serving c bytes reader phase held =>
    exact ⟨.serving c bytes reader phase held, .serving c bytes reader phase held⟩
  | pausing _ phase | acknowledging _ _ phase | answered _ phase =>
    rw [phase] at waits
    cases waits

/-- A listener that is not cancelled follows what happens. -/
theorem step (follows : Follows l a) (e : Event)
    (uncancelled : (l.step e).1.phase ≠ .finished .cancelled) :
    Follows (l.step e).1 (a.next e) := by
  have move := step_move l e
  generalize (l.step e).1 = next, (l.step e).2 = effects at move uncancelled
  cases move with
  | leave | abandon => exact absurd rfl uncancelled
  | stay _ ignored => rwa [follows.next_of_not_heeds ignored]
  | stop =>
    cases follows with
    | idle phase => exact .idle phase
    | pausing due phase unpolled => exact .pausing due phase unpolled
    | serving c bytes reader phase held => exact .serving c bytes reader phase held
    | acknowledging c rest phase => exact .acknowledging c rest phase
    | answered c phase => exact .answered c phase
  | look waits => exact (follows.poll waits).1
  | pend waits => exact (follows.poll waits).2
  | accept c phase =>
    rw [follows.of_accepting phase]
    exact .serving c [] {} rfl rfl
  | pause now phase =>
    rw [follows.of_accepting phase]
    exact .pausing _ rfl rfl
  | resume due phase =>
    rw [(follows.of_pausing phase).1]
    exact .idle rfl
  | next c reader phase =>
    obtain ⟨bytes, _, rfl⟩ := follows.of_serving phase
    exact .idle rfl
  | read c reader next more phase _ goesOn =>
    obtain ⟨bytes, held, rfl⟩ := follows.of_serving phase
    have fed : RequestReader.feed {} (bytes ++ more) = some next := by
      rw [RequestReader.feed_append, held]
      exact goesOn
    have unasked : ¬Requests (bytes ++ more) := by
      rw [← RequestReader.feed_eq_none_iff, fed]
      exact Option.some_ne_none next
    rw [Attention.next, if_neg unasked]
    exact .serving c (bytes ++ more) next rfl fed
  | request c reader more phase _ complete =>
    obtain ⟨bytes, held, rfl⟩ := follows.of_serving phase
    have requests : Requests (bytes ++ more) := by
      rw [← RequestReader.feed_eq_none_iff, RequestReader.feed_append, held]
      exact complete
    rw [Attention.next, if_pos requests]
    exact .acknowledging c acknowledgementLine rfl
  | write c n rest phase =>
    rw [follows.of_acknowledging phase]
    exact .acknowledging c (rest.drop n) rfl
  | answer c n rest phase | giveUp c rest phase =>
    rw [follows.of_acknowledging phase]
    exact .answered c rfl

end Follows

theorem finished_step {l : Listener} {o : ListenOutcome} (finished : l.phase = .finished o)
    (e : Event) : l.step e = (l, []) := by
  obtain ⟨phase, _, _⟩ := l
  obtain rfl : phase = .finished o := finished
  cases e <;> rfl

theorem follows_after (events : List Event)
    (uncancelled : (after {} events).phase ≠ .finished .cancelled) :
    Follows (after {} events) (attention events) := by
  induction events using List.reverseRecOn with
  | nil => exact .idle rfl
  | append_singleton events e ih =>
    rw [after_concat] at uncancelled ⊢
    rw [attention_concat]
    refine (ih fun cancelled => uncancelled ?_).step e uncancelled
    rw [finished_step cancelled]
    exact cancelled

/-- A write failed when a connection had asked. -/
def Failed (events : List Event) : Prop :=
  ∃ before later c, events = before ++ .writeFailed :: later ∧ Asked before c

/-- What a listener has done that is in a phase: it closed connections that asked for nothing, and
then at most answered one. -/
inductive Told (events : List Event) : Phase → List Effect → Prop where
  | listening (closed : List Nat) {phase : Phase} (listening : phase.isListening = true) :
      Told events phase (closed.map .close)
  | acknowledging (closed : List Nat) (c : Nat) (pieces : List (List UInt8)) (rest : List UInt8)
      (asked : Asked events c) (whole : pieces.flatten ++ rest = acknowledgementLine)
      (more : rest ≠ []) :
      Told events (.acknowledging c rest)
        (closed.map .close ++ .acknowledge c :: pieces.map (.write c))
  | answered (closed : List Nat) (c : Nat) (pieces : List (List UInt8)) (asked : Asked events c)
      (part : pieces.flatten <+: acknowledgementLine)
      (whole : pieces.flatten = acknowledgementLine ∨ Failed events) :
      Told events (.finished .shutdownRequested)
        (closed.map .close ++ .acknowledge c :: pieces.map (.write c) ++
          [.callBack, .close c, .release])
  | cancelled (closed : List Nat) (stopped : .stopped ∈ events) :
      Told events (.finished .cancelled) (closed.map .close ++ [.release])

theorem Told.append {events : List Event} {phase : Phase} {log : List Effect}
    (told : Told events phase log) (more : List Event) : Told (events ++ more) phase log := by
  cases told with
  | listening closed listening => exact .listening closed listening
  | acknowledging closed c pieces rest asked whole some =>
    exact .acknowledging closed c pieces rest (asked.append more) whole some
  | answered closed c pieces asked part whole =>
    refine .answered closed c pieces (asked.append more) part (whole.imp_right ?_)
    rintro ⟨before, later, d, rfl, early⟩
    exact ⟨before, later ++ more, d, by simp, early⟩
  | cancelled closed stopped => exact .cancelled closed (List.mem_append_left more stopped)

theorem Told.of_listening {events : List Event} {phase : Phase} {log : List Effect}
    (told : Told events phase log) (listening : phase.isListening = true) :
    ∃ closed : List Nat, log = closed.map .close := by
  cases told with
  | listening closed => exact ⟨closed, rfl⟩
  | acknowledging | answered | cancelled => cases listening

theorem Told.of_acknowledging {events : List Event} {c : Nat} {rest : List UInt8}
    {log : List Effect} (told : Told events (.acknowledging c rest) log) :
    ∃ (closed : List Nat) (pieces : List (List UInt8)), Asked events c ∧
      pieces.flatten ++ rest = acknowledgementLine ∧
      log = closed.map .close ++ .acknowledge c :: pieces.map (.write c) := by
  cases told with
  | listening _ listening => cases listening
  | acknowledging closed _ pieces _ asked whole => exact ⟨closed, pieces, asked, whole, rfl⟩

/-- A listener that goes on listening closes at most one more connection. -/
theorem Told.close {events : List Event} {phase phase' : Phase} {log : List Effect}
    (told : Told events phase log) (listening : phase.isListening = true) (more : List Nat)
    (listening' : phase'.isListening = true) : Told events phase' (log ++ more.map .close) := by
  obtain ⟨closed, rfl⟩ := told.of_listening listening
  rw [← List.map_append]
  exact .listening _ listening'

/-- A listener that was stopped gives up what it is serving, and its path. -/
theorem Told.cancel {events : List Event} {phase : Phase} {log : List Effect}
    (told : Told events phase log) (listening : phase.isListening = true) (more : List Nat)
    (stopped : .stopped ∈ events) :
    Told events (.finished .cancelled) (log ++ (more.map .close ++ [.release])) := by
  obtain ⟨closed, rfl⟩ := told.of_listening listening
  rw [← List.append_assoc, ← List.map_append]
  exact .cancelled _ stopped

/-- As long as it has not finished, a listener knows whether it was stopped. -/
theorem Move.stopping_iff {l next : Listener} {e : Event} {effects : List Effect}
    (move : Move l e next effects) (unfinished : next.outcome? = none) :
    l.outcome? = none ∧ (next.stopping = true ↔ l.stopping = true ∨ e = .stopped) := by
  cases move with
  | stay _ ignored =>
    have unstopped : e ≠ .stopped := by
      rintro rfl
      cases phase : l.phase <;> simp [heeds, outcome?, phase] at ignored unfinished
    exact ⟨unfinished, by simp [unstopped]⟩
  | stop unfinished => exact ⟨unfinished, by simp⟩
  | look | pend => exact ⟨unfinished, by simp⟩
  | leave | abandon | answer | giveUp => cases unfinished
  | accept _ phase | pause _ phase | read _ _ _ _ phase | request _ _ _ phase | next _ _ phase
  | resume _ phase | write _ _ _ phase =>
    exact ⟨by simp [outcome?, phase], by simp⟩

theorem stopping_iff (events : List Event) (unfinished : (after {} events).outcome? = none) :
    (after {} events).stopping = true ↔ .stopped ∈ events := by
  induction events using List.reverseRecOn with
  | nil => simp [after]
  | append_singleton events e ih =>
    rw [after_concat] at unfinished ⊢
    obtain ⟨before, flag⟩ := (step_move (after {} events) e).stopping_iff unfinished
    rw [flag, ih before]
    simp [eq_comm]

theorem told_step {events : List Event} {log : List Effect}
    (told : Told events (after {} events).phase log) (e : Event) :
    Told (events ++ [e]) ((after {} events).step e).1.phase
      (log ++ ((after {} events).step e).2) := by
  have move := step_move (after {} events) e
  have follows := follows_after events
  have follows' := follows_after (events ++ [e])
  rw [after_concat] at follows'
  have flag := stopping_iff events
  generalize after {} events = l at told move follows follows' flag
  generalize (l.step e).1 = next, (l.step e).2 = effects at move follows'
  have grown := told.append [e]
  cases move with
  | stay | stop | look | pend => simpa using grown
  | accept _ phase | pause _ phase | read _ _ _ _ phase | resume _ phase =>
    rw [phase] at grown
    exact grown.close rfl [] rfl
  | next c _ phase =>
    rw [phase] at grown
    exact grown.close rfl [c] rfl
  | leave _ phase stopping =>
    have stopped := (flag (by simp [outcome?, phase])).mp stopping
    rw [phase] at grown
    exact grown.cancel rfl [] (List.mem_append_left _ stopped)
  | abandon _ c _ phase stopping =>
    have stopped := (flag (by simp [outcome?, phase])).mp stopping
    rw [phase] at grown
    exact grown.cancel rfl [c] (List.mem_append_left _ stopped)
  | request c reader bytes phase =>
    have asked : Asked (events ++ [.received bytes]) c :=
      (follows' (by simp)).of_acknowledging rfl
    rw [phase] at grown
    obtain ⟨closed, rfl⟩ := grown.of_listening rfl
    exact .acknowledging closed c [] acknowledgementLine asked rfl (by decide)
  | write c n rest phase more =>
    rw [phase] at grown
    obtain ⟨closed, pieces, asked, whole, rfl⟩ := grown.of_acknowledging
    have parted : (pieces ++ [rest.take n]).flatten ++ rest.drop n = acknowledgementLine := by
      simpa using whole
    have left : rest.drop n ≠ [] := by simpa using more
    simpa using Told.acknowledging closed c (pieces ++ [rest.take n]) _ asked parted left
  | answer c n rest phase all =>
    rw [phase] at grown
    obtain ⟨closed, pieces, asked, whole, rfl⟩ := grown.of_acknowledging
    have full : (pieces ++ [rest]).flatten = acknowledgementLine := by simpa using whole
    simpa using Told.answered closed c (pieces ++ [rest]) asked (full ▸ List.prefix_rfl)
      (.inl full)
  | giveUp c rest phase =>
    have early : Asked events c := (follows (by simp [phase])).of_acknowledging phase
    rw [phase] at grown
    obtain ⟨closed, pieces, asked, whole, rfl⟩ := grown.of_acknowledging
    have part : pieces.flatten <+: acknowledgementLine := ⟨rest, whole⟩
    simpa using Told.answered closed c pieces asked part (.inr ⟨events, [], c, rfl, early⟩)

theorem told_after (events : List Event) :
    Told events (after {} events).phase (deeds {} events) := by
  induction events using List.reverseRecOn with
  | nil => exact .listening [] rfl
  | append_singleton events e ih =>
    rw [after_concat, deeds_concat]
    exact told_step ih e

theorem isAnswering_step {l : Listener} (answering : l.phase.isAnswering = true) (e : Event) :
    (l.step e).1.phase.isAnswering = true := by
  have move := step_move l e
  generalize (l.step e).1 = next, (l.step e).2 = effects at move
  cases move with
  | stay | stop | look | pend => exact answering
  | write | answer | giveUp => rfl
  | accept _ phase | pause _ phase | leave _ phase | read _ _ _ _ phase | request _ _ _ phase
  | next _ _ phase | abandon _ _ _ phase | resume _ phase =>
    rw [phase] at answering
    cases answering

theorem isAnswering_after {l : Listener} (answering : l.phase.isAnswering = true)
    (events : List Event) : (l.after events).phase.isAnswering = true := by
  induction events generalizing l with
  | nil => exact answering
  | cons e events ih => exact ih (isAnswering_step answering e)

end Overseer.Shutdown.Listener
