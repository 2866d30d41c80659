import Mathlib.Data.List.Nodup
import Overseer.Proofs.Shutdown.Listening
import Overseer.Proofs.Shutdown.Meeting

/-!
What every step of a meeting keeps. The listener reads what was sent on the connection that it
serves, and writes to a connection only after it has read a request from it; each signaler has a
connection of its own.
-/
namespace Overseer.Shutdown.Meeting

variable {k : Nat} {m : Meeting}

/-- Every connection carries what was sent on it, and the ones that wait were not read from. -/
structure Streams (m : Meeting) (backlog : List Nat) : Prop where
  made : ∀ n, (m.world.connection? n).isSome = true → n < m.world.next
  unsent : ∀ n, m.world.next ≤ n → m.sent n = []
  whole : ∀ n, m.heard n ++ m.world.unread n = m.sent n
  waiting : ∀ n ∈ backlog, n < m.world.next ∧ m.heard n = []
  nodup : backlog.Nodup

/-- The connection that is served does not wait, and its reader holds what was read from it. -/
def Serving (m : Meeting) (l : Listener) (backlog : List Nat) : Prop :=
  ∀ c reader, l.phase = .serving c reader →
    c ∉ backlog ∧ c < m.world.next ∧ RequestReader.feed {} (m.heard c) = some reader

/-- Only who made a request is answered, and then the listener has acted on it or is about to. -/
structure Answers (m : Meeting) (l : Listener) (calls : Nat) : Prop where
  asked : ∀ c rest, l.phase = .acknowledging c rest →
    RequestReader.feed {} (m.heard c) = none ∧ ∀ n, m.world.received n ≠ [] → n = c
  deserved : ∀ n, m.world.received n ≠ [] →
    l.phase.isAnswering = true ∧ RequestReader.feed {} (m.heard n) = none
  alone : ∀ n n', m.world.received n ≠ [] → m.world.received n' ≠ [] → n = n'
  calls : calls = if l.phase = .finished .shutdownRequested then 1 else 0

/-- Each signaler has a connection of its own, on which it sends its request only. -/
structure Callers (m : Meeting) : Prop where
  lines : ∀ i n, m.lines i = some n → n < m.world.next ∧ m.sent n <+: requestLine
  distinct : ∀ i j n, m.lines i = some n → m.lines j = some n → i = j
  exchanging : ∀ i a c deadline, m.world.signalers[i]? = some a →
    a.signaler.phase = .exchanging c deadline → m.lines i = some c
  acknowledged : ∀ i, m.Acknowledged i → ∃ n, m.lines i = some n ∧ m.world.received n ≠ []

structure Invariant (k : Nat) (m : Meeting) (s : Station) : Prop where
  alone : m.world.stations = [s]
  number : s.number = k
  streams : Streams m s.backlog
  serving : Serving m s.listener s.backlog
  answers : Answers m s.listener s.calls
  callers : Callers m

open World (Performed Sent)

theorem Streams.performed {effects : List Listener.Effect} {w' : World} {backlog backlog' : List Nat}
    (streams : Streams m backlog) (done : Performed effects m.world w')
    (fewer : backlog'.Sublist backlog) : Streams { m with world := w' } backlog' where
  made n made := done.next ▸ streams.made n (done.made n ▸ made)
  unsent n later := streams.unsent n (done.next ▸ later)
  whole n := done.unread ▸ streams.whole n
  waiting n waits := done.next ▸ streams.waiting n (fewer.subset waits)
  nodup := streams.nodup.sublist fewer

theorem Callers.performed {effects : List Listener.Effect} {w' : World} (callers : Callers m)
    (done : Performed effects m.world w') : Callers { m with world := w' } where
  lines i n line := done.next ▸ callers.lines i n line
  distinct := callers.distinct
  exchanging i a c deadline here := callers.exchanging i a c deadline (done.signalers ▸ here)
  acknowledged i told := by
    obtain ⟨a, here, ok⟩ := told
    obtain ⟨n, line, some⟩ := callers.acknowledged i ⟨a, done.signalers ▸ here, ok⟩
    refine ⟨n, line, fun none => some ?_⟩
    exact List.prefix_nil.mp (none ▸ done.received n)

/-- A connection that comes about waits, and nothing is under way on it. -/
theorem Streams.attach {backlog : List Nat} (streams : Streams m backlog) (client : ClientSide) :
    Streams { m with world := m.world.attach k { number := m.world.next, client } }
      (backlog ++ [m.world.next]) where
  made n made := by
    rw [World.connection?_attach, Option.isSome_or, Bool.or_eq_true] at made
    rcases made with before | new
    · exact Nat.lt_succ_of_lt (streams.made n before)
    · have here : m.world.next = n := by
        by_contra other
        simp [other] at new
      exact here ▸ Nat.lt_succ_self _
  unsent n later := streams.unsent n (Nat.le_of_succ_le later)
  whole n := by
    rw [World.unread_attach _ _ _ rfl]
    exact streams.whole n
  waiting n waits := by
    rcases List.mem_append.mp waits with before | new
    · have waiting := streams.waiting n before
      exact ⟨Nat.lt_succ_of_lt waiting.1, waiting.2⟩
    · obtain rfl := List.mem_singleton.mp new
      have unsent := streams.unsent _ (Nat.le_refl m.world.next)
      rw [← streams.whole, List.append_eq_nil_iff] at unsent
      exact ⟨Nat.lt_succ_self _, unsent.1⟩
  nodup := by
    refine List.nodup_append.mpr ⟨streams.nodup, List.nodup_singleton _, fun n waits n' new => ?_⟩
    obtain rfl := List.mem_singleton.mp new
    exact Nat.ne_of_lt (streams.waiting n waits).1

/-- What is sent on a connection waits there to be read. -/
theorem Streams.send {n : Nat} {bytes : List UInt8} {w : World} {backlog : List Nat}
    (streams : Streams m backlog) (sent : Sent n bytes m.world w) :
    Streams { m with world := w, sent := Function.update m.sent n (m.sent n ++ bytes) } backlog where
  made c made := sent.next ▸ streams.made c (sent.made c ▸ made)
  unsent c later := by
    have other : c ≠ n := by
      rintro rfl
      have made := streams.made c sent.there
      have next : w.next ≤ c := later
      rw [sent.next] at next
      exact Nat.lt_irrefl _ (Nat.lt_of_lt_of_le made next)
    have unsent := streams.unsent c (sent.next ▸ later)
    simpa [other] using unsent
  whole c := by
    by_cases here : c = n
    · subst here
      have whole := streams.whole c
      simp only [sent.unread, Function.update_self]
      rw [← List.append_assoc, whole]
    · simpa [sent.unread, here] using streams.whole c
  waiting c waits := sent.next ▸ streams.waiting c waits
  nodup := streams.nodup

/-- What is read from a connection no longer waits there. -/
theorem Streams.hear {c count : Nat} {connection : Connection} {backlog : List Nat}
    (streams : Streams m backlog) (made : m.world.connection? c = some connection)
    (served : c ∉ backlog) :
    Streams { m with
      world := m.world.mapConnection c fun c => c.take count
      heard := Function.update m.heard c (m.heard c ++ connection.unread.take count) } backlog where
  made n made := by
    have same := World.isSome_mapConnection m.world c (f := fun c => c.take count) (fun _ => rfl) n
    exact streams.made n (same.symm.trans made)
  unsent := streams.unsent
  whole n := by
    have unread : m.world.unread c = connection.unread := by simp [World.unread, made]
    have left := World.unread_update m.world c (f := fun c => c.take count) (g := (·.drop count))
      (fun _ => rfl) (fun _ => rfl) (by rw [made]; rfl)
    dsimp only
    rw [left, unread]
    by_cases here : n = c
    · subst here
      rw [Function.update_self, Function.update_self, List.append_assoc, List.take_append_drop,
        ← unread]
      exact streams.whole n
    · rw [Function.update_of_ne here, Function.update_of_ne here]
      exact streams.whole n
  waiting n waits := by
    have other : n ≠ c := fun same => served (same ▸ waits)
    dsimp only
    rw [Function.update_of_ne other]
    exact streams.waiting n waits
  nodup := streams.nodup

theorem Callers.hear {c : Nat} (callers : Callers m) (count : Nat) (heard : List UInt8) :
    Callers { m with
      world := m.world.mapConnection c fun c => c.take count
      heard := Function.update m.heard c heard } :=
  { callers with
    acknowledged := fun i told => by
      rw [World.received_mapConnection m.world c (f := fun c => c.take count) (fun _ => rfl)
        fun _ => rfl]
      exact callers.acknowledged i told }

theorem Callers.send {n : Nat} {bytes : List UInt8} {w : World} (callers : Callers m)
    (sent : Sent n bytes m.world w)
    (asks : ∀ i, m.lines i = some n → m.sent n ++ bytes <+: requestLine) :
    Callers { m with world := w, sent := Function.update m.sent n (m.sent n ++ bytes) } where
  lines i c line := by
    refine ⟨sent.next ▸ (callers.lines i c line).1, ?_⟩
    by_cases here : c = n
    · subst here
      simpa using asks i line
    · simpa [here] using (callers.lines i c line).2
  distinct := callers.distinct
  exchanging i a c deadline here := callers.exchanging i a c deadline (sent.signalers ▸ here)
  acknowledged i told := by
    obtain ⟨a, here, ok⟩ := told
    obtain ⟨c, line, some⟩ := callers.acknowledged i ⟨a, sent.signalers ▸ here, ok⟩
    exact ⟨c, line, sent.received ▸ some⟩

theorem mem_setSignaler {w : World} {i j : Nat} {a b : SignalerAt}
    (there : (w.setSignaler i a).signalers[j]? = some b) :
    i = j ∧ a = b ∨ i ≠ j ∧ w.signalers[j]? = some b := by
  rw [World.setSignaler, List.getElem?_set] at there
  split at there
  · next same =>
    split at there
    · exact .inl ⟨same, Option.some.inj there⟩
    · cases there
  · next other => exact .inr ⟨other, there⟩

/-- Where a signaler can get that makes no connection. It is told no more than was written to it. -/
inductive Course (m : Meeting) (i : Nat) (s : Signaler) : Signaler → Prop where
  | stay : Course m i s s
  | connecting {t : Signaler} (due : Nat) (phase : t.phase = .connecting due) : Course m i s t
  | error {t : Signaler} (e : ShutdownError) (phase : t.phase = .finished (.error e)) :
      Course m i s t
  | ok {t : Signaler} (n : Nat) (phase : t.phase = .finished (.ok ())) (line : m.lines i = some n)
      (some : m.world.received n ≠ []) : Course m i s t

theorem answer?_eq_some_iff (s : Signaler) (a : Answer) :
    s.answer? = some a ↔ s.phase = .finished a := by
  cases phase : s.phase <;> simp [Signaler.answer?, phase]

theorem Callers.move {i : Nat} {a : SignalerAt} {t : Signaler} (callers : Callers m)
    (here : m.world.signalers[i]? = some a) (course : Course m i a.signaler t) :
    Callers { m with world := m.world.setSignaler i { a with signaler := t } } where
  lines := callers.lines
  distinct := callers.distinct
  exchanging j b c deadline there phase' := by
    rcases mem_setSignaler there with ⟨rfl, rfl⟩ | ⟨-, before⟩
    · cases course with
      | stay => exact callers.exchanging i a c deadline here phase'
      | connecting _ phase | error _ phase | ok _ phase => cases phase.symm.trans phase'
    · exact callers.exchanging j b c deadline before phase'
  acknowledged j told := by
    obtain ⟨b, there, ok⟩ := told
    rcases mem_setSignaler there with ⟨rfl, rfl⟩ | ⟨-, before⟩
    · cases course with
      | stay => exact callers.acknowledged i ⟨a, here, ok⟩
      | connecting _ phase | error _ phase =>
        cases phase.symm.trans ((answer?_eq_some_iff _ _).mp ok)
      | ok n _ line some => exact ⟨n, line, some⟩
    · exact callers.acknowledged j ⟨b, before, ok⟩

theorem Callers.attach (callers : Callers m) (client : ClientSide) :
    Callers { m with world := m.world.attach k { number := m.world.next, client } } where
  lines i n line := by
    obtain ⟨old, part⟩ := callers.lines i n line
    exact ⟨Nat.lt_succ_of_lt old, part⟩
  distinct := callers.distinct
  exchanging := callers.exchanging
  acknowledged i told := by
    rw [World.received_attach _ _ _ rfl]
    exact callers.acknowledged i told

theorem lines_update {lines : Nat → Option Nat} {i n j c : Nat}
    (line : Function.update lines i (some n) j = some c) :
    i = j ∧ n = c ∨ i ≠ j ∧ lines j = some c := by
  by_cases same : i = j
  · subst same
    exact .inl ⟨rfl, by simpa using line⟩
  · exact .inr ⟨same, by simpa [Function.update_of_ne (Ne.symm same)] using line⟩

/-- A signaler gets a connection that is nobody else's. -/
theorem Callers.connect {i n deadline : Nat} {a : SignalerAt} (callers : Callers m)
    (phase : a.signaler.phase = .exchanging n deadline) (made : n < m.world.next)
    (unsent : m.sent n = []) (free : ∀ j, m.lines j ≠ some n) :
    Callers { m with
      world := m.world.setSignaler i a
      lines := Function.update m.lines i (some n) } where
  lines j c line := by
    rcases lines_update line with ⟨rfl, rfl⟩ | ⟨-, before⟩
    · exact ⟨made, unsent ▸ List.nil_prefix⟩
    · exact callers.lines j c before
  distinct j j' c line line' := by
    rcases lines_update line with ⟨rfl, rfl⟩ | ⟨-, before⟩
    · rcases lines_update line' with ⟨rfl, -⟩ | ⟨-, before'⟩
      · rfl
      · exact absurd before' (free j')
    · rcases lines_update line' with ⟨rfl, rfl⟩ | ⟨-, before'⟩
      · exact absurd before (free j)
      · exact callers.distinct j j' c before before'
  exchanging j b c deadline' there phase' := by
    rcases mem_setSignaler there with ⟨rfl, rfl⟩ | ⟨other, before⟩
    · rw [phase] at phase'
      cases phase'
      exact Function.update_self ..
    · exact (Function.update_of_ne (Ne.symm other) ..).trans
        (callers.exchanging j b c deadline' before phase')
  acknowledged j told := by
    obtain ⟨b, there, ok⟩ := told
    rcases mem_setSignaler there with ⟨rfl, rfl⟩ | ⟨other, before⟩
    · simp [Signaler.answer?, phase] at ok
    · obtain ⟨c, line, some⟩ := callers.acknowledged j ⟨b, before, ok⟩
      exact ⟨c, (Function.update_of_ne (Ne.symm other) ..).trans line, some⟩

open Listener (Move)

theorem Answers.silent {l : Listener} {calls : Nat} (answers : Answers m l calls)
    (unasked : l.phase.isAnswering = false) : (∀ n, m.world.received n = []) ∧ calls = 0 := by
  refine ⟨fun n => ?_, ?_⟩
  · by_contra some
    have answering := (answers.deserved n some).1
    rw [unasked] at answering
    cases answering
  · have open' : l.phase ≠ .finished .shutdownRequested := by
      intro finished
      rw [finished] at unasked
      cases unasked
    rw [answers.calls, if_neg open']

theorem Answers.mono {m' : Meeting} {l : Listener} {calls : Nat} (answers : Answers m l calls)
    (heard : m'.heard = m.heard)
    (fewer : ∀ n, m'.world.received n ≠ [] → m.world.received n ≠ []) : Answers m' l calls where
  asked c rest phase := by
    obtain ⟨requested, only⟩ := answers.asked c rest phase
    exact ⟨heard ▸ requested, fun n some => only n (fewer n some)⟩
  deserved n some := heard ▸ answers.deserved n (fewer n some)
  alone n n' some some' := answers.alone n n' (fewer n some) (fewer n' some')
  calls := answers.calls

theorem Answers.of_silent {l : Listener} (silent : ∀ n, m.world.received n = [])
    (unasked : l.phase.isAnswering = false) : Answers m l 0 where
  asked c rest phase := by
    rw [phase] at unasked
    cases unasked
  deserved n some := absurd (silent n) some
  alone n _ some := absurd (silent n) some
  calls := by
    split
    · next finished =>
      rw [finished] at unasked
      cases unasked
    · rfl

/-- Only the connection was written to from which a request was read. -/
theorem Answers.of_only {l : Listener} {c calls : Nat}
    (requested : RequestReader.feed {} (m.heard c) = none)
    (only : ∀ n, m.world.received n ≠ [] → n = c) (answering : l.phase.isAnswering = true)
    (here : ∀ d rest, l.phase = .acknowledging d rest → d = c)
    (counted : calls = if l.phase = .finished .shutdownRequested then 1 else 0) :
    Answers m l calls where
  asked d rest phase := here d rest phase ▸ ⟨requested, only⟩
  deserved n some := ⟨answering, only n some ▸ requested⟩
  alone n n' some some' := (only n some).trans (only n' some').symm
  calls := counted

theorem Serving.tell {l l' : Listener} {e : Listener.Event} {effects : List Listener.Effect}
    {backlog : List Nat} (serving : Serving m l backlog) (move : Move l e l' effects)
    (connects : ∀ c, e ≠ .accepted c) (reads : ∀ bytes, e ≠ .received bytes) :
    Serving m l' backlog := by
  intro c reader phase'
  cases move with
  | stay | stop | look | pend => exact serving c reader phase'
  | accept c => exact absurd rfl (connects c)
  | read _ _ _ bytes | request _ _ bytes => exact absurd rfl (reads bytes)
  | pause | leave | next | abandon | resume | write | answer | giveUp => cases phase'

theorem Answers.tell {l l' : Listener} {e : Listener.Event} {effects : List Listener.Effect}
    {w' : World} {calls : Nat} (answers : Answers m l calls) (move : Move l e l' effects)
    (connects : ∀ c, e ≠ .accepted c) (reads : ∀ bytes, e ≠ .received bytes)
    (done : Performed effects m.world w') :
    Answers { m with world := w' } l' (calls + effects.count .callBack) := by
  have only {c : Nat} {rest : List UInt8} (phase : l.phase = .acknowledging c rest)
      (here : ∀ n bytes, .write n bytes ∈ effects → n = c) (n : Nat) (some : w'.received n ≠ []) :
      n = c := by
    rcases done.written n some with before | ⟨bytes, wrote⟩
    · exact (answers.asked c rest phase).2 n before
    · exact here n bytes wrote
  cases move with
  | stay | stop | look | pend =>
    have kept : Answers { m with world := w' } l calls :=
      answers.mono rfl fun n some => (done.written n some).resolve_right (by simp)
    exact { kept with }
  | accept c => exact absurd rfl (connects c)
  | read _ _ _ bytes | request _ _ bytes => exact absurd rfl (reads bytes)
  | pause _ phase | leave _ phase | next _ _ phase | abandon _ _ _ phase | resume _ phase =>
    obtain ⟨silent, rfl⟩ := answers.silent (by rw [phase]; rfl)
    exact .of_silent (fun n => done.unwritten (silent n) (by simp)) rfl
  | write c n rest phase =>
    refine .of_only (answers.asked c rest phase).1 (only phase (by simp)) rfl ?_ ?_
    · rintro d rest' here
      cases here
      rfl
    · simp [answers.calls, phase]
  | answer c n rest phase | giveUp c rest phase =>
    refine .of_only (answers.asked c rest phase).1 (only phase (by simp)) rfl ?_ ?_
    · rintro d rest' here
      cases here
    · simp [answers.calls, phase]

theorem judge?_ok {received : List UInt8} {ending : Option Ending}
    (ok : judge? received ending = some (.ok ())) : received ≠ [] := by
  rintro rfl
  cases ending with
  | none => cases ok
  | some ending => cases ending <;> cases ok

theorem course_attempt (i : Nat) (s : Signaler) (now : Nat) (e : SystemError) :
    Course m i s (s.attempt now (.failed e)) := by
  by_cases again : retries e = true
  · exact .connecting (now + connectInterval) (by simp [Signaler.attempt, again])
  · exact .error (.connect s.channel e) (by simp [Signaler.attempt, again])

theorem course_expire (i : Nat) (s : Signaler) (now : Nat) : Course m i s (s.expire now) := by
  unfold Signaler.expire
  split
  · split
    · exact .error _ rfl
    · exact .stay
  · split
    · exact .error _ rfl
    · exact .stay
  · exact .stay

/-- Who is told that the request is acknowledged heard something. -/
theorem course_hear {i c : Nat} {s : Signaler} {bytes : List UInt8} {ending : Option Ending}
    (line : m.lines i = some c) (part : bytes <+: m.world.received c) :
    Course m i s (s.hear bytes ending) := by
  unfold Signaler.hear
  split
  · split
    · next answer judged =>
      cases answer with
      | error e => exact .error e rfl
      | ok u =>
        refine .ok c rfl line fun none => judge?_ok judged ?_
        exact List.prefix_nil.mp (none ▸ part)
    · exact .stay
  · exact .stay

/-- The listener has been told of an event. -/
theorem Invariant.tell {s : Station} {e : Listener.Event} (alone : m.world.stations = [s])
    (number : s.number = k) (streams : Streams m s.backlog) (callers : Callers m)
    (serving : Serving m (s.listener.step e).1 s.backlog)
    (answers : ∀ w', Performed (s.listener.step e).2 m.world w' → Answers { m with world := w' }
      (s.listener.step e).1 (s.calls + (s.listener.step e).2.count .callBack)) :
    ∃ s', Invariant k { m with world := m.world.tell k e } s' ∧
      s'.listener = (s.listener.step e).1 := by
  have done := World.performed_tell k (World.station?_alone alone number) e
  obtain ⟨backlog, fewer, alone'⟩ := World.tell_alone alone number e
  refine ⟨_, ⟨alone', number, streams.performed done fewer, ?_, answers _ done,
    callers.performed done⟩, rfl⟩
  intro c reader phase
  obtain ⟨gone, made, held⟩ := serving c reader phase
  exact ⟨fun waits => gone (fewer.subset waits), done.next ▸ made, held⟩

/-- The listener takes up a connection that waited. -/
theorem Invariant.accept {s : Station} {c : Nat} {rest : List Nat} (inv : Invariant k m s)
    (phase : s.listener.phase = .accepting) (stays : s.listener.leaves = false)
    (waiting : s.backlog = c :: rest) :
    ∃ s', Invariant k
        { m with
          world :=
            (m.world.mapStation k fun s => { s with backlog := rest }).tell k (.accepted c) }
        s' ∧
      s'.listener = (s.listener.step (.accepted c)).1 := by
  have step : s.listener.step (.accepted c) = (s.listener.enter (.serving c {}), []) := by
    simp [Listener.step, Listener.await, phase, stays]
  have fewer : rest.Sublist s.backlog := waiting ▸ List.sublist_cons_self c rest
  have first := inv.streams.waiting c (by simp [waiting])
  have streams := inv.streams.performed (.refl [] m.world) fewer
  have silent := inv.answers.silent (by rw [phase]; rfl)
  have popped := World.mapStation_alone inv.alone inv.number fun s => { s with backlog := rest }
  refine Invariant.tell
    (m := { m with world := m.world.mapStation k fun s => { s with backlog := rest } })
    (s := { s with backlog := rest }) popped inv.number
    { streams with } { inv.callers with } ?_ fun w' done => ?_
  · rintro d reader serves
    rw [step] at serves
    cases serves
    have nodup := inv.streams.nodup
    rw [waiting, List.nodup_cons] at nodup
    exact ⟨nodup.1, first.1, by rw [first.2]; rfl⟩
  · rw [step, silent.2]
    rw [step] at done
    exact .of_silent (fun n => done.unwritten (silent.1 n) (by simp)) rfl

/-- The listener reads a part of what waits on the connection that it serves. -/
theorem Invariant.read {s : Station} {c : Nat} {reader : RequestReader} {connection : Connection}
    (inv : Invariant k m s) (count : Nat) (phase : s.listener.phase = .serving c reader)
    (stays : s.listener.leaves = false) (made : m.world.connection? c = some connection) :
    ∃ s', Invariant k
        { m with
          world := (m.world.mapConnection c fun c => c.take count).tell k
            (.received (connection.unread.take count))
          heard := Function.update m.heard c (m.heard c ++ connection.unread.take count) }
        s' ∧
      s'.listener = (s.listener.step (.received (connection.unread.take count))).1 := by
  obtain ⟨served, old, held⟩ := inv.serving c reader phase
  obtain ⟨silent, undone⟩ := inv.answers.silent (by rw [phase]; rfl)
  have fed : RequestReader.feed {} (m.heard c ++ connection.unread.take count) =
      reader.feed (connection.unread.take count) := by
    rw [RequestReader.feed_append, held, Option.bind_some]
  have silent (n : Nat) : (m.world.mapConnection c fun c => c.take count).received n = [] := by
    rw [World.received_mapConnection m.world c (f := fun c => c.take count) (fun _ => rfl)
      fun _ => rfl]
    exact silent n
  have step := Listener.step_received phase stays (connection.unread.take count)
  refine Invariant.tell
    (m := { m with
      world := m.world.mapConnection c fun c => c.take count
      heard := Function.update m.heard c (m.heard c ++ connection.unread.take count) })
    inv.alone inv.number (inv.streams.hear made served) (inv.callers.hear count _) ?_
    fun w' done => ?_
  · rintro d next serves
    rw [step] at serves
    cases goesOn : reader.feed (connection.unread.take count) with
    | none =>
      rw [goesOn] at serves
      cases serves
    | some after =>
      rw [goesOn] at serves
      cases serves
      exact ⟨served, old, by simpa [goesOn] using fed⟩
  · rw [step] at done ⊢
    rw [undone]
    cases goesOn : reader.feed (connection.unread.take count) with
    | none =>
      rw [goesOn] at done
      have requested := fed.trans goesOn
      refine .of_only (c := c) (by simpa using requested) (fun n some => ?_) rfl ?_ rfl
      · exact absurd (done.unwritten (silent n) (by simp)) some
      · rintro d rest here
        cases here
        rfl
    | some after =>
      rw [goesOn] at done
      exact .of_silent (fun n => done.unwritten (silent n) (by simp)) rfl

theorem Invariant.listen {s : Station} {e : Listener.Event} {m' : Meeting}
    (inv : Invariant k m s) (occurs : Occurs k m e m') :
    ∃ s', Invariant k { m' with world := m'.world.tell k e } s' ∧
      s'.listener = (s.listener.step e).1 := by
  have found := World.station?_alone inv.alone inv.number
  cases occurs with
  | other e connects reads =>
    have move := Listener.step_move s.listener e
    exact Invariant.tell inv.alone inv.number inv.streams inv.callers
      (inv.serving.tell move connects reads)
      fun _ done => inv.answers.tell move connects reads done
  | @accepted t c rest here phase stays waiting =>
    obtain rfl : s = t := Option.some.inj (found.symm.trans here)
    exact inv.accept phase stays waiting
  | @received t c reader connection count here phase stays made =>
    obtain rfl : s = t := Option.some.inj (found.symm.trans here)
    exact inv.read count phase stays made

theorem Invariant.attach {s : Station} (inv : Invariant k m s) (client : ClientSide) :
    Invariant k { m with world := m.world.attach k { number := m.world.next, client } }
      { s with backlog := s.backlog ++ [m.world.next], ready := true } where
  alone := World.attach_alone inv.alone inv.number _
  number := inv.number
  streams := inv.streams.attach client
  serving c reader phase := by
    obtain ⟨served, old, held⟩ := inv.serving c reader phase
    refine ⟨?_, Nat.lt_succ_of_lt old, held⟩
    rw [List.mem_append, List.mem_singleton]
    exact not_or.mpr ⟨served, Nat.ne_of_lt old⟩
  answers := inv.answers.mono rfl fun n some => by rwa [World.received_attach _ _ _ rfl] at some
  callers := inv.callers.attach client

theorem Invariant.send {s : Station} {n : Nat} {bytes : List UInt8} {w : World}
    (inv : Invariant k m s) (sent : Sent n bytes m.world w)
    (asks : ∀ i, m.lines i = some n → m.sent n ++ bytes <+: requestLine) :
    Invariant k { m with world := w, sent := Function.update m.sent n (m.sent n ++ bytes) } s where
  alone := sent.stations.trans inv.alone
  number := inv.number
  streams := inv.streams.send sent
  serving c reader phase := sent.next ▸ inv.serving c reader phase
  answers := inv.answers.mono rfl fun _ some => sent.received ▸ some
  callers := inv.callers.send sent asks

/-- Nothing happens that matters to the listener and its connections. -/
theorem Invariant.rest {s : Station} {w' : World} (inv : Invariant k m s)
    (done : Performed [] m.world w') (stations : w'.stations = m.world.stations) :
    Invariant k { m with world := w' } s where
  alone := stations.trans inv.alone
  number := inv.number
  streams := inv.streams.performed done (List.Sublist.refl _)
  serving c reader phase := done.next ▸ inv.serving c reader phase
  answers := inv.answers.mono rfl fun n some => (done.written n some).resolve_right (by simp)
  callers := inv.callers.performed done

theorem Invariant.move {s : Station} {i : Nat} {a : SignalerAt} {t : Signaler}
    (inv : Invariant k m s) (here : m.world.signalers[i]? = some a)
    (course : Course m i a.signaler t) :
    Invariant k { m with world := m.world.setSignaler i { a with signaler := t } } s :=
  { inv with
    streams := { inv.streams with }
    answers := { inv.answers with }
    callers := inv.callers.move here course }

theorem Invariant.call {s : Station} (inv : Invariant k m s) (name channel : String) :
    Invariant k { m with world := m.world.signal name channel } s := by
  have known {i : Nat} {a : SignalerAt}
      (here : (m.world.signal name channel).signalers[i]? = some a) :
      m.world.signalers[i]? = some a ∨ a.signaler.phase = .connecting m.world.now := by
    rw [World.signal, List.getElem?_append] at here
    split at here
    · exact .inl here
    · rw [List.getElem?_singleton] at here
      split at here
      · cases here
        exact .inr rfl
      · cases here
  have callers : Callers { m with world := m.world.signal name channel } := {
    lines := inv.callers.lines
    distinct := inv.callers.distinct
    exchanging := fun i a c deadline here phase => by
      rcases known here with before | new
      · exact inv.callers.exchanging i a c deadline before phase
      · cases new.symm.trans phase
    acknowledged := fun i ⟨a, here, ok⟩ => by
      rcases known here with before | new
      · exact inv.callers.acknowledged i ⟨a, before, ok⟩
      · cases new.symm.trans ((answer?_eq_some_iff _ _).mp ok) }
  exact { inv with
    streams := { inv.streams with }
    answers := { inv.answers with }
    callers }

/-- A connection that comes about is at the listener. -/
theorem Invariant.attached {s : Station} {name : String} {client : ClientSide} {c : Nat} {w : World}
    (inv : Invariant k m s) (made : m.world.connect name client = .ok (c, w)) :
    c = m.world.next ∧ w = m.world.attach k { number := m.world.next, client } := by
  obtain ⟨owner, live, fresh, attached⟩ := World.connect_eq made
  obtain rfl : k = owner := inv.number.symm.trans (World.number_of_isLive inv.alone live)
  exact ⟨fresh, attached⟩

theorem Invariant.connect {s : Station} {i c : Nat} {a : SignalerAt} {w : World}
    (inv : Invariant k m s) (made : m.world.connect a.signaler.channel .open = .ok (c, w)) :
    Invariant k { m with
      world := w.setSignaler i
        { a with signaler := a.signaler.attempt m.world.now (.connected c) }
      lines := Function.update m.lines i (some c) }
      { s with backlog := s.backlog ++ [m.world.next], ready := true } := by
  obtain ⟨rfl, rfl⟩ := inv.attached made
  have attached := inv.attach .open
  have unsent := inv.streams.unsent _ (Nat.le_refl m.world.next)
  have free (j : Nat) : m.lines j ≠ some m.world.next := fun line =>
    Nat.lt_irrefl _ (inv.callers.lines j _ line).1
  have callers := attached.callers.connect (i := i)
    (a := { a with signaler := a.signaler.attempt m.world.now (.connected m.world.next) }) rfl
    (Nat.lt_succ_self _) unsent free
  exact { attached with
    streams := { attached.streams with }
    answers := { attached.answers with }
    callers }

/-- What a step keeps. The listener goes its own way. -/
theorem Invariant.step {s : Station} {m' : Meeting} (inv : Invariant k m s) (step : Step k m m') :
    ∃ s' events, Invariant k m' s' ∧ s'.listener = s.listener.after events := by
  have goes (n : Nat) : Invariant k { m with world := m.world.close n } s :=
    inv.rest (World.performed_mapConnection _ _ _ (fun _ => rfl) (fun _ => rfl) fun _ => rfl) rfl
  cases step with
  | elapse => exact ⟨s, [], inv.rest { World.Performed.refl [] m.world with } rfl, rfl⟩
  | lull =>
    have alone := World.mapStation_alone inv.alone inv.number fun s => { s with ready := false }
    exact ⟨_, [], ⟨alone, inv.number, { inv.streams with }, inv.serving, { inv.answers with },
      { inv.callers with }⟩, rfl⟩
  | call name channel => exact ⟨s, [], inv.call name channel, rfl⟩
  | refuse e here => exact ⟨s, [], inv.move here (course_attempt _ _ _ e), rfl⟩
  | connect _ _ made => exact ⟨_, [], inv.connect made, rfl⟩
  | ask here phase part sent =>
    exact ⟨s, [], inv.send (World.sent_of_send sent) fun _ _ => part, rfl⟩
  | @hear i a c _ connection _ _ here phase made part =>
    have line := inv.callers.exchanging _ _ _ _ here phase
    have received : m.world.received c = connection.received := by simp [World.received, made]
    exact ⟨s, [], inv.move here (course_hear line (received ▸ part)), rfl⟩
  | fail e here => exact ⟨s, [], inv.move here (.error e rfl), rfl⟩
  | expire here => exact ⟨s, [], inv.move here (course_expire _ _ _), rfl⟩
  | leave | close => exact ⟨s, [], goes _, rfl⟩
  | visit made =>
    obtain ⟨-, rfl⟩ := inv.attached made
    exact ⟨_, [], inv.attach _, rfl⟩
  | send other sent =>
    exact ⟨s, [], inv.send (World.sent_of_send sent) fun i line => absurd line (other i), rfl⟩
  | halfClose =>
    exact ⟨s, [], inv.rest (World.performed_mapConnection _ _ _ World.number_halfClose
      World.unread_halfClose World.received_halfClose) rfl, rfl⟩
  | @listen e _ occurs =>
    obtain ⟨s', inv', told⟩ := inv.listen occurs
    exact ⟨s', [e], inv', told⟩

theorem Invariant.steps {s : Station} {m' : Meeting} (inv : Invariant k m s) (steps : Steps k m m') :
    ∃ s' events, Invariant k m' s' ∧ s'.listener = s.listener.after events := by
  induction steps with
  | refl => exact ⟨s, [], inv, rfl⟩
  | tail _ step ih =>
    obtain ⟨s', events, inv', course⟩ := ih
    obtain ⟨s'', later, inv'', course'⟩ := inv'.step step
    exact ⟨s'', events ++ later, inv'', by rw [course', course, Listener.after_append]⟩

theorem clearStale_eq {w : World} (nobody : w.stations = []) (name : String) :
    ∃ files, (w.clearStale name).2 = { w with files } := by
  have dead (owner : Option Nat) : w.isLive owner = false := by
    cases owner <;> simp [World.isLive, World.station?, nobody]
  have unseen (owner : Option Nat) : w.probe owner = (false, w) := by
    unfold World.probe
    split
    · rfl
    · split
      · simp [dead]
      · rfl
  unfold World.clearStale
  split
  · exact ⟨w.files, rfl⟩
  · split
    · exact ⟨w.files, rfl⟩
    · exact ⟨w.files, rfl⟩
    · split
      · exact ⟨w.files, rfl⟩
      · rw [unseen]
        exact ⟨_, rfl⟩
      · exact ⟨w.files, rfl⟩

theorem bind_eq {w w' : World} {name : String} (bound : w.bind name = (.ok k, w')) :
    k = w.next ∧ ∃ files place, w' = { w with
      next := w.next + 1
      files
      stations := w.stations ++ [{ number := w.next, place }] } := by
  unfold World.bind at bound
  split at bound
  · cases bound
  · split at bound
    · cases bound
    · split at bound
      · cases bound
      · split at bound
        · cases bound
        · cases bound
          exact ⟨rfl, _, _, rfl⟩

/-- A listener that was just bound waits for its first connection. -/
theorem listen_eq {w w' : World} {name : String} (nobody : w.stations = [])
    (bound : w.listen name = (.ok k, w')) :
    k = w.next ∧ ∃ files place, w' = { w with
      next := w.next + 1
      files
      stations := [{ number := w.next, place }] } := by
  obtain ⟨files, cleared⟩ := clearStale_eq nobody name
  unfold World.listen at bound
  split at bound
  · cases bound
  · next w₀ eq =>
    rw [eq] at cleared
    obtain rfl : w₀ = { w with files } := cleared
    obtain ⟨rfl, files', place, rfl⟩ := bind_eq bound
    exact ⟨rfl, files', place, by simp [nobody]⟩

theorem invariant_listen {w w' : World} {name : String} (nobody : w.stations = [])
    (quiet : w.connections = []) (uncalled : w.signalers = [])
    (bound : w.listen name = (.ok k, w')) : ∃ s, Invariant k { world := w' } s := by
  obtain ⟨rfl, files, place, rfl⟩ := listen_eq nobody bound
  have idle (n : Nat) : w.connection? n = none := by simp [World.connection?, quiet]
  have unread (n : Nat) : w.unread n = [] := by simp [World.unread, idle]
  have received (n : Nat) : w.received n = [] := by simp [World.received, idle]
  refine ⟨{ number := w.next, place }, rfl, rfl, ?_, ?_, ?_, ?_⟩
  · exact {
      made := fun n made => by simp [World.connection?, quiet] at made
      unsent := fun _ _ => rfl
      whole := unread
      waiting := fun n waits => by cases waits
      nodup := List.nodup_nil }
  · intro c reader phase
    cases phase
  · exact .of_silent received rfl
  · exact {
      lines := fun i n line => by cases line
      distinct := fun i j n line => by cases line
      exchanging := fun i a c deadline here => by simp [uncalled] at here
      acknowledged := fun i told => by
        obtain ⟨a, here, _⟩ := told
        simp [uncalled] at here }

theorem Reachable.invariant (reached : Reachable k m) : ∃ s, Invariant k m s := by
  obtain ⟨w, w', name, nobody, quiet, uncalled, bound, steps⟩ := reached
  obtain ⟨s, inv⟩ := invariant_listen nobody quiet uncalled bound
  obtain ⟨s', _, inv', _⟩ := inv.steps steps
  exact ⟨s', inv'⟩

end Overseer.Shutdown.Meeting
