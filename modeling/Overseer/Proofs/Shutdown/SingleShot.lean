import Overseer.Proofs.Shutdown.Listening

/-!
A listener acts on one request at most: it writes to who sent it, then calls back. A stop cancels it
at its next look, unless a request is read before that. One that comes later makes no difference.
-/
namespace Overseer.Shutdown.Listener

/-- What a listener does that is answering does not hang on whether it was stopped. -/
theorem step_of_isAnswering {l l' : Listener} (same : l.phase = l'.phase)
    (answering : l.phase.isAnswering = true) (e : Event) :
    (l.step e).1.phase = (l'.step e).1.phase ∧ (l.step e).2 = (l'.step e).2 := by
  obtain ⟨phase, _, _⟩ := l
  obtain ⟨_, _, _⟩ := l'
  obtain rfl : phase = _ := same
  cases phase with
  | accepting | serving | pausing => cases answering
  | finished => cases e <;> exact ⟨rfl, rfl⟩
  | acknowledging c rest =>
    cases e with
    | wrote n => by_cases more : n < rest.length <;> simp [step, more]
    | _ => exact ⟨rfl, rfl⟩

theorem answering_ignores_stops {l l' : Listener} (same : l.phase = l'.phase)
    (answering : l.phase.isAnswering = true) (events : List Event) :
    (l.after events).phase = (l'.after (events.filter (· ≠ .stopped))).phase ∧
      l.deeds events = l'.deeds (events.filter (· ≠ .stopped)) := by
  induction events generalizing l l' with
  | nil => exact ⟨same, rfl⟩
  | cons e events ih =>
    by_cases other : e = .stopped
    · subst other
      rw [List.filter_cons_of_neg (by simp), after_cons, deeds_cons, step_stopped]
      exact ih same answering
    · obtain ⟨next, effects⟩ := step_of_isAnswering same answering e
      obtain ⟨later, done⟩ := ih next (isAnswering_step answering e)
      rw [List.filter_cons_of_pos (by simpa using other), after_cons, after_cons, deeds_cons,
        deeds_cons, effects]
      exact ⟨later, congrArg (_ ++ ·) done⟩

/-- A stop that falls into a poll is not noticed in it. It might as well have come later. -/
theorem step_stopped_comm {l : Listener} (waits : l.phase.isWaiting = true)
    (polled : l.polling = true) {e : Event} (look : e ≠ .woken) (rest : e ≠ .pended) :
    ((l.step .stopped).1.step e).1 = ((l.step e).1.step .stopped).1 ∧
      ((l.step .stopped).1.step e).2 = (l.step e).2 := by
  obtain ⟨phase, stopping, polling⟩ := l
  obtain rfl : polling = true := polled
  cases phase with
  | pausing | acknowledging | finished => cases waits
  | accepting =>
    cases e with
    | woken => exact absurd rfl look
    | pended => exact absurd rfl rest
    | _ => simp [step, await, leaves, enter]
  | serving c reader =>
    cases e with
    | woken => exact absurd rfl look
    | pended => exact absurd rfl rest
    | received bytes =>
      cases fed : reader.feed bytes <;> simp [step, await, leaves, enter, fed]
    | _ => simp [step, await, leaves, enter]

theorem Follows.waits {l : Listener} {a : Attention} (follows : Follows l a)
    (polled : a.isPolled = true) : l.phase.isWaiting = true ∧ l.polling = true := by
  cases follows with
  | idle phase | serving _ _ _ phase => exact ⟨by rw [phase]; rfl, polled⟩
  | pausing | acknowledging | answered => cases polled

theorem stopped_comm {before : List Event} (polled : (attention before).isPolled = true)
    {e : Event} (look : e ≠ .woken) (rest : e ≠ .pended) :
    (((after {} before).step .stopped).1.step e).1 =
        (((after {} before).step e).1.step .stopped).1 ∧
      (((after {} before).step .stopped).1.step e).2 = ((after {} before).step e).2 := by
  by_cases cancelled : (after {} before).phase = .finished .cancelled
  · simp [finished_step cancelled]
  · obtain ⟨waits, polling⟩ := (follows_after before cancelled).waits polled
    exact step_stopped_comm waits polling look rest

def wroteIn : List Event → Nat
  | [] => 0
  | .wrote n :: events => n + wroteIn events
  | _ :: events => wroteIn events

theorem after_finished {l : Listener} {o : ListenOutcome} (finished : l.phase = .finished o)
    (events : List Event) : l.after events = l := by
  induction events with
  | nil => rfl
  | cons e events ih => rw [after_cons, finished_step finished, ih]

/-- Once all of the acknowledgement is written, or a write fails, the listener has finished. -/
theorem finished_of_written {l : Listener} {c : Nat} {rest : List UInt8} {events : List Event}
    (phase : l.phase = .acknowledging c rest) (more : rest ≠ [])
    (written : .writeFailed ∈ events ∨ rest.length ≤ wroteIn events) :
    (l.after events).phase = .finished .shutdownRequested := by
  induction events generalizing l rest with
  | nil => simp [wroteIn, more] at written
  | cons e events ih =>
    cases e with
    | wrote n =>
      by_cases part : n < rest.length
      · have goesOn : (l.step (.wrote n)).1.phase = .acknowledging c (rest.drop n) := by
          simp [step, phase, part]
        refine ih goesOn (by simpa using part) ?_
        rcases written with failed | enough
        · exact .inl (by simpa using failed)
        · refine .inr ?_
          simp only [wroteIn, List.length_drop] at enough ⊢
          omega
      · have ends : (l.step (.wrote n)).1.phase = .finished .shutdownRequested := by
          simp [step, phase, part]
        rw [after_cons, after_finished ends, ends]
    | writeFailed =>
      have ends : (l.step .writeFailed).1.phase = .finished .shutdownRequested := by
        simp [step, phase]
      rw [after_cons, after_finished ends, ends]
    | accepted | acceptFailed | received | ended | resumed | woken | pended | stopped =>
      exact ih (by simp [step, phase]) more (by simpa [wroteIn] using written)

/-- The listener was stopped before it read any request, and looks before it reads again. -/
def IsDoomed (l : Listener) : Prop :=
  l.phase = .finished .cancelled ∨
    l.phase.isListening = true ∧ l.stopping = true ∧ l.polling = false

theorem IsDoomed.step {l : Listener} (doomed : l.IsDoomed) (e : Event) :
    (l.step e).1.IsDoomed := by
  have unfinished {phase : Phase} (eq : l.phase = phase) (other : phase ≠ .finished .cancelled) :
      phase.isListening = true ∧ l.stopping = true ∧ l.polling = false := by
    rcases doomed with finished | listening
    · exact absurd (eq.symm.trans finished) other
    · exact eq ▸ listening
  have move := step_move l e
  generalize (l.step e).1 = next, (l.step e).2 = effects at move
  cases move with
  | stay => exact doomed
  | leave | abandon => exact .inl rfl
  | stop => exact doomed.imp id fun listening => ⟨listening.1, rfl, listening.2.2⟩
  | pend => exact doomed.imp id fun listening => ⟨listening.1, listening.2.1, rfl⟩
  | look waits free =>
    rcases doomed with finished | ⟨_, stopping, _⟩
    · rw [finished] at waits
      cases waits
    · rw [free] at stopping
      cases stopping
  | accept _ phase stays | pause _ phase stays | read _ _ _ _ phase stays
  | request _ _ _ phase stays | next _ _ phase stays =>
    obtain ⟨_, stopping, unpolled⟩ := unfinished phase (by simp)
    simp [leaves, stopping, unpolled] at stays
  | resume _ phase => exact .inr ⟨rfl, (unfinished phase (by simp)).2.1, rfl⟩
  | write _ _ _ phase | answer _ _ _ phase | giveUp _ _ phase =>
    cases (unfinished phase (by simp)).1

theorem IsDoomed.after {l : Listener} (doomed : l.IsDoomed) (events : List Event) :
    (l.after events).IsDoomed := by
  induction events generalizing l with
  | nil => exact doomed
  | cons e events ih => exact ih (doomed.step e)

theorem IsDoomed.not_isAnswering {l : Listener} (doomed : l.IsDoomed) :
    l.phase.isAnswering ≠ true := by
  intro answering
  rcases doomed with finished | ⟨listening, _⟩
  · rw [finished] at answering
    cases answering
  · exact Phase.not_isAnswering listening answering

theorem IsDoomed.not_shutDown {l : Listener} (doomed : l.IsDoomed) :
    l.phase ≠ .finished .shutdownRequested := fun finished =>
  doomed.not_isAnswering (by rw [finished]; rfl)

/-- At the latest when it is through with a pause and looks again, it has given up. -/
theorem IsDoomed.finishes {l : Listener} (doomed : l.IsDoomed) :
    (l.after [.resumed, .woken]).outcome? = some .cancelled := by
  obtain ⟨phase, _, _⟩ := l
  rcases doomed with finished | ⟨listening, stopping, _⟩
  · cases finished
    rfl
  · cases stopping
    cases phase <;> first | rfl | cases listening

/-- Stopped before anybody asked, and with no poll under way or one that has only just begun, the
listener is doomed. -/
theorem isDoomed_of_stopped {before : List Event} (stopped : .stopped ∈ before)
    (unasked : ∀ c, ¬Asked before c)
    (looks : (attention before).isPolled = false ∨ before.getLast? = some .woken) :
    (after {} before).IsDoomed := by
  by_cases cancelled : (after {} before).phase = .finished .cancelled
  · exact .inl cancelled
  · have follows := follows_after before cancelled
    have listening := follows.isListening unasked
    have unfinished : (after {} before).outcome? = none := by
      cases phase : (after {} before).phase <;> simp [outcome?, phase, Phase.isListening]
        at listening ⊢
    have stopping := (stopping_iff before unfinished).mpr stopped
    refine .inr ⟨listening, stopping, ?_⟩
    rcases looks with unpolled | last
    · rw [← follows.isPolled listening, unpolled]
    · obtain ⟨earlier, rfl⟩ := List.getLast?_eq_some_iff.mp last
      rw [after_concat] at follows listening stopping cancelled ⊢
      have move := step_move (after {} earlier) .woken
      generalize after {} earlier = l at *
      generalize (l.step .woken).1 = next, (l.step .woken).2 = effects at *
      cases move with
      | leave | abandon => exact absurd rfl cancelled
      | look _ free => simp [free] at stopping
      | stay _ ignored =>
        cases phase : l.phase with
        | pausing => exact (follows.of_pausing phase).2
        | accepting | serving => simp [heeds, phase] at ignored
        | acknowledging | finished => simp [phase, Phase.isListening] at listening

theorem writtenTo_append (c : Nat) (first later : List Effect) :
    writtenTo c (first ++ later) = writtenTo c first ++ writtenTo c later := by
  simp [writtenTo]

theorem writtenTo_closed (c : Nat) (closed : List Nat) : writtenTo c (closed.map .close) = [] := by
  simp [writtenTo, List.filterMap_map]

theorem writtenTo_pieces (c d : Nat) (pieces : List (List UInt8)) :
    writtenTo d (pieces.map (.write c)) = if c = d then pieces.flatten else [] := by
  by_cases same : c = d
  · simp [writtenTo, List.filterMap_map, same]
  · simp [writtenTo, List.filterMap_map, same]

theorem writtenTo_answered (closed : List Nat) (c d : Nat) (pieces : List (List UInt8)) :
    writtenTo d (closed.map .close ++ .acknowledge c :: pieces.map (.write c) ++
      [.callBack, .close c, .release]) = if c = d then pieces.flatten else [] := by
  rw [writtenTo_append, writtenTo_append, writtenTo_closed]
  have last : writtenTo d [.callBack, .close c, .release] = [] := rfl
  rw [last, List.append_nil]
  exact writtenTo_pieces c d pieces

/-- At most one connection was written to, and that one a part of the acknowledgement. -/
theorem Told.written {events : List Event} {phase : Phase} {log : List Effect}
    (told : Told events phase log) :
    ∃ c bytes, bytes <+: acknowledgementLine ∧ (bytes ≠ [] → Asked events c) ∧
      ∀ d, writtenTo d log = if c = d then bytes else [] := by
  cases told with
  | listening closed =>
    refine ⟨0, [], List.nil_prefix, fun some => absurd rfl some, fun d => ?_⟩
    rw [writtenTo_closed, ite_self]
  | cancelled closed =>
    refine ⟨0, [], List.nil_prefix, fun some => absurd rfl some, fun d => ?_⟩
    rw [writtenTo_append, writtenTo_closed, ite_self]
    rfl
  | acknowledging closed c pieces rest asked whole =>
    refine ⟨c, pieces.flatten, ⟨rest, whole⟩, fun _ => asked, fun d => ?_⟩
    rw [writtenTo_append, writtenTo_closed]
    exact writtenTo_pieces c d pieces
  | answered closed c pieces asked part =>
    exact ⟨c, pieces.flatten, part, fun _ => asked, fun d => writtenTo_answered closed c d pieces⟩

theorem Told.unwritten {events : List Event} {phase : Phase} {log : List Effect}
    (told : Told events phase log) (unanswering : phase.isAnswering ≠ true) (c : Nat) :
    writtenTo c log = [] := by
  cases told with
  | listening closed => exact writtenTo_closed c closed
  | cancelled closed =>
    rw [writtenTo_append, writtenTo_closed]
    rfl
  | acknowledging | answered => exact absurd rfl unanswering

theorem Told.whole {events : List Event} {phase : Phase} {log : List Effect}
    (told : Told events phase log) (ended : phase = .finished .shutdownRequested)
    (unfailed : ¬Failed events) : ∃ c, Asked events c ∧ writtenTo c log = acknowledgementLine := by
  cases told with
  | listening _ listening => cases ended ▸ listening
  | acknowledging | cancelled => cases ended
  | answered closed c pieces asked _ whole =>
    refine ⟨c, asked, ?_⟩
    rw [writtenTo_answered, if_pos rfl]
    exact whole.resolve_right unfailed

theorem Told.callBack_mem_iff {events : List Event} {phase : Phase} {log : List Effect}
    (told : Told events phase log) :
    .callBack ∈ log ↔ phase = .finished .shutdownRequested := by
  cases told with
  | listening closed listening =>
    have unfinished : phase ≠ .finished .shutdownRequested := by
      rintro rfl
      cases listening
    simp [unfinished]
  | acknowledging | answered | cancelled => simp

theorem Told.count_callBack_le {events : List Event} {phase : Phase} {log : List Effect}
    (told : Told events phase log) : log.count .callBack ≤ 1 := by
  have none (closed : List Nat) : (closed.map Effect.close).count .callBack = 0 :=
    List.count_eq_zero.mpr (by simp)
  have none' (c : Nat) (pieces : List (List UInt8)) :
      (pieces.map (Effect.write c)).count .callBack = 0 :=
    List.count_eq_zero.mpr (by simp)
  cases told with
  | listening | cancelled | acknowledging | answered => simp [none, none']

/-- The acknowledgement is begun before the callback, and nothing is written after it. -/
theorem Told.attempted {events : List Event} {phase : Phase} {log before later : List Effect}
    (told : Told events phase log) (split : log = before ++ .callBack :: later) :
    ∃ c, Asked events c ∧ .acknowledge c ∈ before ∧ ∀ d bytes, .write d bytes ∉ later := by
  have done : .callBack ∈ log := by simp [split]
  cases told with
  | listening | acknowledging | cancelled => simp at done
  | answered closed c pieces asked =>
    have first : .callBack ∉ closed.map Effect.close ++ .acknowledge c :: pieces.map (.write c) := by
      simp
    have last : .callBack ∉ [Effect.close c, .release] := by simp
    obtain ⟨rfl, -, rfl⟩ := (List.append_cons_inj_of_notMem first last).mp split
    exact ⟨c, asked, by simp, by simp⟩

theorem Told.stopped {events : List Event} {phase : Phase} {log : List Effect}
    (told : Told events phase log) (cancelled : phase = .finished .cancelled) :
    .stopped ∈ events := by
  cases told with
  | listening _ listening => cases cancelled ▸ listening
  | acknowledging | answered => cases cancelled
  | cancelled _ stopped => exact stopped

theorem Told.acknowledged {events : List Event} {phase : Phase} {log : List Effect}
    (told : Told events phase log) (answering : phase.isAnswering = true) {c : Nat}
    (asked : Asked events c) : .acknowledge c ∈ log := by
  cases told with
  | listening _ listening => exact absurd answering (Phase.not_isAnswering listening)
  | acknowledging closed d pieces rest asked' | answered closed d pieces asked' =>
    obtain rfl : d = c := by simpa using (show attention events = _ from asked').symm.trans asked
    simp
  | cancelled => cases answering

/-- However much of the acknowledgement was written before, it is all written now. -/
theorem Told.finishes {before : List Event} {l : Listener} {log : List Effect}
    (told : Told before l.phase log) (answering : l.phase.isAnswering = true) {later : List Event}
    (written : .writeFailed ∈ later ∨ acknowledgementLine.length ≤ wroteIn later) :
    (l.after later).phase = .finished .shutdownRequested := by
  generalize phase : l.phase = p at told answering
  cases told with
  | listening _ listening => exact absurd answering (Phase.not_isAnswering listening)
  | acknowledging _ c pieces rest _ whole more =>
    have shorter : rest.length ≤ acknowledgementLine.length := by
      rw [← whole, List.length_append]
      exact Nat.le_add_left _ _
    exact finished_of_written phase more (written.imp id (Nat.le_trans shorter))
  | answered => rw [after_finished phase, phase]
  | cancelled => cases answering

/-- A listener that has read a request goes on to acknowledge it and to call back, whatever stops come
in between. -/
theorem committed_of_asked {before : List Event} (later : List Event) {c : Nat}
    (asked : Asked before c) (uncancelled : (after {} before).phase ≠ .finished .cancelled) :
    (after {} (before ++ later)).phase =
        (after {} (before ++ later.filter (· ≠ .stopped))).phase ∧
      deeds {} (before ++ later) = deeds {} (before ++ later.filter (· ≠ .stopped)) ∧
      (∀ o, (after {} (before ++ later)).outcome? = some o → o = .shutdownRequested) ∧
      (.writeFailed ∈ later ∨ acknowledgementLine.length ≤ wroteIn later →
        (after {} (before ++ later)).outcome? = some .shutdownRequested ∧
          .callBack ∈ deeds {} (before ++ later)) := by
  have answering := (follows_after before uncancelled).isAnswering asked
  have ignored := answering_ignores_stops (l := after {} before) rfl answering later
  rw [after_append, after_append, deeds_append, deeds_append]
  refine ⟨ignored.1, congrArg (deeds {} before ++ ·) ignored.2, fun o ended => ?_,
    fun written => ?_⟩
  · exact outcome?_of_isAnswering (isAnswering_after answering later) ended
  · have finished : ((after {} before).after later).phase = .finished .shutdownRequested :=
      (told_after before).finishes answering written
    refine ⟨(outcome?_eq_some_iff _ _).mpr finished, ?_⟩
    rw [← deeds_append, (told_after (before ++ later)).callBack_mem_iff, after_append]
    exact finished

/-- Whoever comes next to a listener that nobody has asked yet is served, and asks by sending a
request. -/
theorem asked_of_next {events : List Event} (unasked : ∀ c, ¬Asked events c) (c : Nat)
    {bytes : List UInt8} (requests : Requests bytes) :
    Asked (events ++ [.ended, .resumed, .accepted c, .received bytes]) c := by
  rw [Asked, attention_append]
  cases attends : attention events with
  | asked d => exact absurd attends (unasked d)
  | idle | pausing | serving =>
    simp [Attention.next, requests]

/-- What a listener does in any course of events. -/
structure SingleShot (events : List Event) : Prop where
  once : (deeds {} events).count .callBack ≤ 1
  /-- Once it has ended, it has called back exactly if it was asked to shut down. -/
  decided : ∀ o, (after {} events).outcome? = some o →
    (.callBack ∈ deeds {} events ↔ o = .shutdownRequested)
  alone : ∀ c d, writtenTo c (deeds {} events) ≠ [] → writtenTo d (deeds {} events) ≠ [] → c = d
  part : ∀ c, writtenTo c (deeds {} events) <+: acknowledgementLine
  deserved : ∀ c, writtenTo c (deeds {} events) ≠ [] → Asked events c
  /-- Unless a write failed, who asked is sent all of the acknowledgement. -/
  whole : (after {} events).outcome? = some .shutdownRequested → ¬Failed events →
    ∃ c, Asked events c ∧ writtenTo c (deeds {} events) = acknowledgementLine
  /-- The acknowledgement of a request is begun before the callback, and over then. -/
  attempted : ∀ before later, deeds {} events = before ++ .callBack :: later →
    ∃ c, Asked events c ∧ .acknowledge c ∈ before ∧ ∀ d bytes, .write d bytes ∉ later
  /-- As long as it is not cancelled, which takes a stop, it attends to what there is. -/
  follows : ((after {} events).outcome? = some .cancelled → .stopped ∈ events) ∧
    ((after {} events).outcome? ≠ some .cancelled → Follows (after {} events) (attention events))
  /-- While nobody asks and nobody stops it, it listens, and the next one who asks is answered. -/
  patient : (∀ c, ¬Asked events c) → .stopped ∉ events →
    (after {} events).phase.isListening = true ∧ ∀ c bytes, Requests bytes →
      .acknowledge c ∈ deeds {} (events ++ [.ended, .resumed, .accepted c, .received bytes])
  /-- Stopped before a request was read, it is cancelled when it looks again: at once if no poll is
  under way, or one that has only just begun. -/
  cancelled : ∀ before later, events = before ++ later → .stopped ∈ before →
    (∀ c, ¬Asked before c) →
    (attention before).isPolled = false ∨ before.getLast? = some .woken →
    .callBack ∉ deeds {} events ∧ (∀ c, writtenTo c (deeds {} events) = []) ∧
    (∀ o, (after {} events).outcome? = some o → o = .cancelled) ∧
    (after {} (events ++ [.resumed, .woken])).outcome? = some .cancelled
  /-- A stop that falls into a poll is as one that comes after what the poll finds next. -/
  slipped : ∀ before e later, events = before ++ .stopped :: e :: later →
    (attention before).isPolled = true → e ≠ .woken → e ≠ .pended →
    after {} events = after {} (before ++ e :: .stopped :: later) ∧
    deeds {} events = deeds {} (before ++ e :: .stopped :: later)
  /-- Once a request was read, stops make no difference, and it calls back when all of the
  acknowledgement is written or cannot be. -/
  committed : ∀ before later c, events = before ++ later → Asked before c →
    (after {} before).outcome? ≠ some .cancelled →
    (after {} events).phase = (after {} (before ++ later.filter (· ≠ .stopped))).phase ∧
    deeds {} events = deeds {} (before ++ later.filter (· ≠ .stopped)) ∧
    (∀ o, (after {} events).outcome? = some o → o = .shutdownRequested) ∧
    (.writeFailed ∈ later ∨ acknowledgementLine.length ≤ wroteIn later →
      (after {} events).outcome? = some .shutdownRequested ∧ .callBack ∈ deeds {} events)

theorem not_cancelled_iff {l : Listener} :
    l.outcome? ≠ some .cancelled ↔ l.phase ≠ .finished .cancelled :=
  not_congr (outcome?_eq_some_iff l .cancelled)

theorem single_shot (events : List Event) : SingleShot events := by
  have told := told_after events
  obtain ⟨b, bytes, part, deserved, written⟩ := told.written
  have wrote {c : Nat} (some : writtenTo c (deeds {} events) ≠ []) : b = c ∧ bytes ≠ [] := by
    simpa [written] using some
  have stopped (ended : (after {} events).outcome? = some .cancelled) : .stopped ∈ events :=
    told.stopped ((outcome?_eq_some_iff _ _).mp ended)
  refine ⟨told.count_callBack_le, ?decided, fun _ _ someC someD => ?alone, ?part,
    fun _ some => (wrote some).1 ▸ deserved (wrote some).2,
    fun ended => told.whole ((outcome?_eq_some_iff _ _).mp ended), fun _ _ => told.attempted,
    ⟨stopped, fun other => follows_after events (not_cancelled_iff.mp other)⟩,
    fun unasked unstopped => ?patient, ?cancelled, ?slipped, ?committed⟩
  case decided =>
    intro o ended
    rw [told.callBack_mem_iff, (outcome?_eq_some_iff _ _).mp ended, Phase.finished.injEq]
  case alone => exact (wrote someC).1.symm.trans (wrote someD).1
  case part =>
    intro c
    rw [written]
    split
    · exact part
    · exact List.nil_prefix
  case patient =>
    refine ⟨(follows_after events fun ended => unstopped (told.stopped ended)).isListening unasked,
      fun c more requests => ?_⟩
    have asked := asked_of_next unasked c requests
    have told' := told_after (events ++ [.ended, .resumed, .accepted c, .received more])
    have uncancelled := fun ended => unstopped (by simpa using told'.stopped ended)
    exact told'.acknowledged ((follows_after _ uncancelled).isAnswering asked) asked
  case cancelled =>
    intro before later split stopped unasked looks
    have doomed : (after {} events).IsDoomed := by
      rw [split, after_append]
      exact (isDoomed_of_stopped stopped unasked looks).after later
    refine ⟨fun done => doomed.not_shutDown (told.callBack_mem_iff.mp done),
      fun c => told.unwritten doomed.not_isAnswering c, fun o ended => ?_, ?_⟩
    · cases o with
      | cancelled => rfl
      | shutdownRequested => exact absurd ((outcome?_eq_some_iff _ _).mp ended) doomed.not_shutDown
    · rw [after_append]
      exact doomed.finishes
  case slipped =>
    intro before e later split polled look rest
    obtain ⟨same, done⟩ := stopped_comm polled look rest
    rw [split, after_append, after_append, deeds_append, deeds_append, after_cons, after_cons,
      after_cons, after_cons, deeds_cons, deeds_cons, deeds_cons, deeds_cons, same, done,
      step_stopped, step_stopped]
    exact ⟨rfl, rfl⟩
  case committed =>
    rintro before later c rfl asked uncancelled
    exact committed_of_asked later asked (not_cancelled_iff.mp uncancelled)

/-- A first client sends half of a request and goes. The second one's is read half by a poll, in
which the listener is then stopped. The poll reads the rest, and all of the acknowledgement is
written. Stopped at the same place with no poll under way, the listener is cancelled. -/
theorem single_shot_second_client :
    let before : List Event :=
      [.accepted 1, .received [0x45, 0x58], .ended, .accepted 2, .woken, .received [0x45, 0x58]]
    let rest : Event := .received [0x49, 0x54, 0x0a]
    let later : List Event := [.stopped, .wrote 1, .wrote 2]
    let events := before ++ .stopped :: rest :: later
    let asleep := before ++ [.pended, .stopped]
    .acknowledge 9 ∈
      deeds {} (before ++ [.ended, .resumed, .accepted 9, .received requestLine]) ∧
    after {} events = after {} (before ++ rest :: .stopped :: later) ∧
    deeds {} events = deeds {} (before ++ [.stopped, rest] ++ [.wrote 1, .wrote 2]) ∧
    (∃ c, Asked events c ∧ writtenTo c (deeds {} events) = acknowledgementLine) ∧
    .callBack ∈ deeds {} events ∧ .callBack ∉ deeds {} (asleep ++ rest :: later) ∧
    (after {} (asleep ++ [.resumed, .woken])).outcome? = some .cancelled := by
  intro before rest later events asleep
  have unasked : ∀ c, ¬Asked before c := nofun
  have listens := (single_shot before).patient unasked (by decide)
  have slipped := (single_shot events).slipped before rest later rfl rfl (by decide) (by decide)
  have committed := (single_shot events).committed (before ++ [.stopped, rest]) later 2 rfl rfl
    (by decide)
  have whole := (single_shot events).whole (by decide) ?unfailed
  have asleep' := (single_shot (asleep ++ rest :: later)).cancelled asleep (rest :: later) rfl
    (by decide) nofun (.inl rfl)
  have woken := (single_shot asleep).cancelled asleep [] (by simp) (by decide) nofun (.inl rfl)
  exact ⟨listens.2 9 requestLine (by decide), slipped.1, committed.2.1, whole,
    (committed.2.2.2 (.inr (by decide))).2, asleep'.1, woken.2.2.2⟩
  case unfailed =>
    rintro ⟨first, second, c, split, -⟩
    exact absurd (split ▸ List.mem_append_right first (List.mem_cons_self ..)) (by decide)

/-- The listener is stopped before anything was read of the request, and goes on: the stop falls into
a poll. -/
theorem shuts_down_after_stop :
    let before : List Event := [.accepted 1, .woken, .stopped]
    let events := before ++ [.received requestLine, .wrote 3]
    .stopped ∈ before ∧ (∀ c, ¬Asked before c) ∧
      (after {} events).outcome? = some .shutdownRequested ∧ .callBack ∈ deeds {} events :=
  ⟨by decide, nofun, by decide, by decide⟩

/-- A stop that comes before the acknowledgement is written is no matter. -/
example : deeds {} [.accepted 1, .received requestLine, .stopped, .wrote 1, .writeFailed, .woken] =
    [.acknowledge 1, .write 1 [0x4f], .callBack, .close 1, .release] := by
  decide

end Overseer.Shutdown.Listener
