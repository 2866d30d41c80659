import Mathlib.Data.List.Infix
import Overseer.Proofs.Shutdown.Schedule

/-!
At a meeting at most one signaler is told that its request is acknowledged. It is the one whose
request the listener read and acts on, so that the listener ends as one that was asked to shut down.
-/
namespace Overseer.Shutdown.Meeting

variable {k : Nat} {m : Meeting}

/-- What is agreed on at a meeting with the listener `k`. -/
structure Agreement (k : Nat) (m : Meeting) : Prop where
  one : ∀ i j, m.Acknowledged i → m.Acknowledged j → i = j
  /-- Who is told of it has sent its request, and the listener has read it. -/
  asked : ∀ i, m.Acknowledged i →
    ∃ n, m.lines i = some n ∧ m.sent n = requestLine ∧ m.heard n = requestLine
  /-- From then on the listener cannot end but as asked to shut down, having called back once. -/
  bound : ∀ i, m.Acknowledged i → ∀ m', Steps k m m' → ∃ s, m'.world.stations = [s] ∧
    s.listener.phase.isAnswering = true ∧ s.calls ≤ 1 ∧
    ∀ o, s.listener.outcome? = some o → o = .shutdownRequested ∧ s.calls = 1
  cancelled : ∀ s, m.world.station? k = some s → s.listener.outcome? = some .cancelled →
    s.calls = 0 ∧ ∀ i, ¬m.Acknowledged i

/-- No part of the request is one, short of all of it. -/
theorem eq_requestLine_of_prefix {bytes : List UInt8} (part : bytes <+: requestLine)
    (complete : RequestReader.feed {} bytes = none) : bytes = requestLine := by
  have each : ∀ first ∈ requestLine.inits,
      RequestReader.feed {} first = none → first = requestLine := by decide
  exact each bytes ((List.mem_inits _ _).mpr part) complete

theorem Invariant.asked {s : Station} {i : Nat} (inv : Invariant k m s) (told : m.Acknowledged i) :
    ∃ n, m.lines i = some n ∧ m.world.received n ≠ [] ∧ m.sent n = requestLine ∧
      m.heard n = requestLine := by
  obtain ⟨n, line, some⟩ := inv.callers.acknowledged i told
  have whole := inv.streams.whole n
  have sent := (inv.callers.lines i n line).2
  have read : m.heard n <+: m.sent n := whole ▸ List.prefix_append _ _
  have heard := eq_requestLine_of_prefix (read.trans sent) (inv.answers.deserved n some).2
  exact ⟨n, line, some, sent.eq_of_length_le (heard ▸ read.length_le), heard⟩

theorem reachable_agreement (reached : Reachable k m) : Agreement k m := by
  obtain ⟨s, inv⟩ := reached.invariant
  refine ⟨fun i j told told' => ?one, fun i told => ?asked, fun i told m' steps => ?bound,
    fun t here ended => ?cancelled⟩
  case one =>
    obtain ⟨n, line, some, _⟩ := inv.asked told
    obtain ⟨n', line', some', _⟩ := inv.asked told'
    obtain rfl := inv.answers.alone n n' some some'
    exact inv.callers.distinct i j n line line'
  case asked =>
    obtain ⟨n, line, -, sent, heard⟩ := inv.asked told
    exact ⟨n, line, sent, heard⟩
  case bound =>
    obtain ⟨n, _, some, _⟩ := inv.asked told
    obtain ⟨s', events, inv', course⟩ := inv.steps steps
    have answering : s'.listener.phase.isAnswering = true :=
      course ▸ Listener.isAnswering_after (inv.answers.deserved n some).1 events
    refine ⟨s', inv'.alone, answering, ?_, fun o ended => ?_⟩
    · rw [inv'.answers.calls]
      split <;> omega
    · obtain rfl := Listener.outcome?_of_isAnswering answering ended
      rw [inv'.answers.calls, if_pos ((Listener.outcome?_eq_some_iff _ _).mp ended)]
      exact ⟨rfl, rfl⟩
  case cancelled =>
    have found := World.station?_alone inv.alone inv.number
    obtain rfl : s = t := Option.some.inj (found.symm.trans here)
    have phase := (Listener.outcome?_eq_some_iff _ _).mp ended
    refine ⟨(inv.answers.silent (by rw [phase]; rfl)).2, fun i told => ?_⟩
    obtain ⟨n, _, some, _⟩ := inv.asked told
    have answering := (inv.answers.deserved n some).1
    rw [phase] at answering
    cases answering

def bare : World :=
  { files := ⟨[(["tmp"], .directory), (FileTree.scratch, .directory)]⟩ }

def crowd : World :=
  let listening := (bare.listen "x").2
  let visited := listening.attach 0 { number := listening.next }
  let left := (visited.send listening.next [0x48, 0x69, 0x0a]).2.close listening.next
  ((left.signal "a" "x").signal "b" "x").advance 100

theorem reachable_agreement_crowd : ∃ m, m.world = crowd ∧ Reachable 0 m ∧ m.Acknowledged 0 ∧
    (∀ i, m.Acknowledged i → i = 0) ∧ Agreement 0 m := by
  obtain ⟨named, connects, sent, answered⟩ :
      (bare.listen "x").1.toOption = some 0 ∧
      ((bare.listen "x").2.connect "x" .open).isOk = true ∧
      (((bare.listen "x").2.attach 0 { number := (bare.listen "x").2.next }).send
        (bare.listen "x").2.next [0x48, 0x69, 0x0a]).1 = true ∧
      (crowd.signalers[0]?.bind fun a => a.signaler.answer?).any (·.isOk) = true := by
    decide +kernel
  have bound : bare.listen "x" = (.ok 0, (bare.listen "x").2) := by
    cases answer : (bare.listen "x").1 with
    | error e =>
      rw [answer] at named
      cases named
    | ok k =>
      rw [answer] at named
      cases named
      exact Prod.ext answer rfl
  obtain ⟨s, inv⟩ := invariant_listen rfl rfl rfl bound
  generalize listened : (bare.listen "x").2 = listening at bound inv connects sent
  obtain ⟨c, w, made⟩ : ∃ c w, listening.connect "x" .open = .ok (c, w) := by
    cases answer : listening.connect "x" .open with
    | error e =>
      rw [answer] at connects
      cases connects
    | ok made => exact ⟨_, _, rfl⟩
  obtain ⟨rfl, rfl⟩ := inv.attached made
  have visited : Steps 0 { world := listening } _ := .single (.visit made)
  have said := visited.tail (.send (fun i line => by cases line) (Prod.ext sent rfl))
  have left := said.tail (.close (n := listening.next) fun i line => by cases line)
  have called := (left.tail (.call "a" "x")).tail (.call "b" "x")
  obtain ⟨s', _, inv', _⟩ := inv.steps called
  obtain ⟨m, advanced, eq⟩ := advance_leads inv' 100
  have reached : Reachable 0 m :=
    ⟨bare, listening, "x", rfl, rfl, rfl, bound, called.trans advanced⟩
  have agreement := reachable_agreement reached
  have world : m.world = crowd := by rw [eq, crowd, listened]
  have told : m.Acknowledged 0 := acknowledged_of_any (world ▸ answered)
  exact ⟨m, world, reached, told, fun i told' => agreement.one i 0 told' told, agreement⟩

end Overseer.Shutdown.Meeting
