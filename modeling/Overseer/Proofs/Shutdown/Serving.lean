import Mathlib.Logic.Function.Iterate
import Overseer.Proofs.Shutdown.SingleShot
import Overseer.Proofs.Shutdown.Tenancy

/-!
A listener goes through its connections one by one, and those that end without a request do not keep
it from the next: whoever comes behind them and asks it to exit is answered.
-/
namespace Overseer.Shutdown.World

open Listener (Effect Phase writtenTo writtenTo_append)

def face? (w : World) (n : Nat) : Option (Nat × ClientSide × List UInt8) :=
  (w.connection? n).map Connection.face

theorem Abides.face? {w w' : World} (abides : Abides w w') (n : Nat) : w'.face? n = w.face? n := by
  have looked (w : World) : w.face? n =
      (w.connections.map Connection.face).find? fun face => face.1 = n := by
    rw [List.find?_map]
    rfl
  rw [looked, looked, abides.faces]

section

variable (w : World) (k c : Nat)

theorem received_hangUpAll (connections : List Nat) :
    (w.hangUpAll connections).received = w.received := by
  induction connections generalizing w with
  | nil => rfl
  | cons n connections ih =>
    exact (ih (w.hangUp n)).trans (received_mapConnection w n number_hangUp received_hangUp)

theorem received_writeBack {unread : List UInt8} (there : w.face? c = some (c, .open, unread))
    (bytes : List UInt8) : (w.writeBack c bytes).received c = w.received c ++ bytes := by
  obtain ⟨d, found, face⟩ := Option.map_eq_some_iff.mp there
  have isOpen : d.client = .open := congrArg (fun face => face.2.1) face
  have written : d.writeBack bytes = { d with received := d.received ++ bytes } := by
    simp [Connection.writeBack, isOpen]
  rw [received, received, writeBack, connection?_mapConnection w c fun d => number_writeBack d bytes,
    if_pos rfl, found, Option.map_some, written]
  rfl

variable {w c}

theorem received_perform {unread : List UInt8} (there : w.face? c = some (c, .open, unread))
    (effect : Effect) :
    (w.perform k effect).received c = w.received c ++ writtenTo c [effect] := by
  cases effect with
  | acknowledge | callBack => exact (List.append_nil _).symm
  | close n =>
    have kept := received_mapConnection w n number_hangUp received_hangUp
    exact (congrFun kept c).trans (List.append_nil _).symm
  | write n bytes =>
    by_cases mine : n = c
    · subst mine
      simpa [writtenTo, perform] using received_writeBack w n there bytes
    · simpa [writtenTo, perform, mine] using received_writeBack_of_ne w (Ne.symm mine) bytes
  | release =>
    refine Eq.trans ?_ (List.append_nil _).symm
    simp only [perform]
    split
    · rfl
    · exact congrFun (received_hangUpAll { w with files := _ } _) c

theorem received_performAll {unread : List UInt8} (there : w.face? c = some (c, .open, unread))
    (effects : List Effect) :
    (w.performAll k effects).received c = w.received c ++ writtenTo c effects := by
  induction effects generalizing w with
  | nil => exact (List.append_nil _).symm
  | cons effect effects ih =>
    have still := ((abides_perform w k effect).face? c).trans there
    have both : writtenTo c (effect :: effects) = writtenTo c [effect] ++ writtenTo c effects :=
      writtenTo_append c [effect] effects
    rw [performAll, ih still, received_perform k there effect, both, List.append_assoc]

variable {k} {s : Station} (here : w.station? k = some s)

include here

theorem station?_tell (e : Listener.Event) : (w.tell k e).station? k =
    some ((s.become (s.listener.step e).1).after (s.listener.step e).2) := by
  have told := station?_mapStation w k
    (f := Station.after (s.listener.step e).2 ∘ Station.become (s.listener.step e).1)
    (fun _ => rfl) k
  rw [if_pos rfl, here] at told
  rw [station?, tell_stations here]
  exact told

theorem received_tell {unread : List UInt8} (there : w.face? c = some (c, .open, unread))
    (e : Listener.Event) :
    (w.tell k e).received c = w.received c ++ writtenTo c (s.listener.step e).2 := by
  rw [tell_eq here]
  exact received_performAll (w := w.mapStation k _) k there _

theorem act_eq {w' : World} (step : w.stationStep? s = some w') : w.act k = w' := by
  rw [act, here, Option.bind_some, step]
  rfl

end

/-- A connection comes to nothing: its client has ended it, and what was sent is no request. -/
def isOver (w : World) (reader : RequestReader) (n : Nat) : Bool :=
  (w.face? n).any fun (_, client, unread) => client ≠ .open && (reader.feed unread).isSome

theorem exists_of_isOver {w : World} {reader : RequestReader} {n : Nat}
    (spent : w.isOver reader n = true) :
    ∃ client unread next, w.face? n = some (n, client, unread) ∧ client ≠ .open ∧
      reader.feed unread = some next := by
  rw [isOver, Option.any_eq_true] at spent
  obtain ⟨⟨number, client, unread⟩, there, gone⟩ := spent
  obtain ⟨d, found, face⟩ := Option.map_eq_some_iff.mp there
  have number_eq : d.number = n := by simpa using List.find?_some found
  obtain rfl : number = n := (congrArg Prod.fst face).symm.trans number_eq
  obtain ⟨ended, passed⟩ : client ≠ .open ∧ (reader.feed unread).isSome = true := by
    simpa using gone
  obtain ⟨next, goesOn⟩ := Option.isSome_iff_exists.mp passed
  exact ⟨client, unread, next, there, ended, goesOn⟩

/-- A connection has sent the request to exit, and whoever else waits comes to nothing. -/
structure Unanswered (k c calls : Nat) (place : FileTree.Place) (phase : Phase) (backlog : List Nat)
    (w : World) : Prop where
  here : ∃ polling, w.station? k =
    some { number := k, place, listener := { phase, polling }, backlog, ready := true, calls }
  fed : w.starved = false
  spent : ∀ n ∈ backlog, n ≠ c → w.isOver {} n = true
  asks : w.face? c = some (c, .open, requestLine)
  silent : w.received c = []

/-- A connection was answered after what had come back on it, and the listener, which had called
back so often, has done so once more and finished. -/
structure Answered (k c calls : Nat) (before : List UInt8) (w : World) : Prop where
  received : w.received c = before ++ acknowledgementLine
  finished : ∃ s, w.station? k = some s ∧ s.listener.outcome? = some .shutdownRequested ∧
    s.calls = calls + 1

theorem face?_take (w : World) (n count m : Nat) :
    (w.mapConnection n fun d => d.take count).face? m =
      if m = n then (w.face? n).map fun face => (face.1, face.2.1, face.2.2.drop count)
      else w.face? m := by
  rw [face?, connection?_mapConnection (f := fun d => d.take count) w n fun _ => rfl]
  split
  · rw [Option.map_map, face?, Option.map_map]
    rfl
  · rfl

theorem received_take (w : World) (n count : Nat) :
    (w.mapConnection n fun d => d.take count).received = w.received :=
  received_mapConnection w n (f := fun d => d.take count) (fun _ => rfl) fun _ => rfl

section

variable {w : World} {n : Nat} {client : ClientSide} {unread : List UInt8}
  (there : w.face? n = some (n, client, unread))

include there

theorem face?_take_all :
    (w.mapConnection n fun d => d.take unread.length).face? n = some (n, client, []) := by
  rw [face?_take, if_pos rfl, there]
  simp

/-- All that was sent is read at once. -/
theorem act_read {k : Nat} {s : Station} {reader : RequestReader} (here : w.station? k = some s)
    (number : s.number = k) (serving : s.listener.phase = .serving n reader)
    (free : s.listener.stopping = false) (sent : unread ≠ []) :
    w.act k = (w.mapConnection n fun d => d.take unread.length).tell k (.received unread) := by
  obtain ⟨d, found, face⟩ := Option.map_eq_some_iff.mp there
  obtain rfl : d.unread = unread := congrArg (fun face => face.2.2) face
  exact act_eq here (by simp [stationStep?, serving, free, number, found, sent])

end

/-- A request of the client that is being served is read, acknowledged and called back for. -/
theorem answer {w : World} {k c : Nat} {s : Station} {reader : RequestReader} {unread : List UInt8}
    (here : w.station? k = some s) (serving : s.listener.phase = .serving c reader)
    (free : s.listener.stopping = false)
    (asks : w.face? c = some (c, .open, unread)) (complete : reader.feed unread = none) :
    Answered k c s.calls (w.received c) ((act · k)^[2] w) := by
  have number : s.number = k := by simpa using List.find?_some here
  have sent : unread ≠ [] := by
    rintro rfl
    cases complete
  have step : s.listener.step (.received unread) =
      (s.listener.enter (.acknowledging c acknowledgementLine), [.acknowledge c]) := by
    rw [Listener.step_received serving (Listener.leaves_of_free free), complete]
  -- The request is read.
  have first := act_read asks here number serving free sent
  set read := w.mapConnection c fun d => d.take unread.length
  have taken : read.face? c = some (c, .open, []) := face?_take_all asks
  set asked := w.act k
  have acknowledging : asked.station? k =
      some { s with listener := s.listener.enter (.acknowledging c acknowledgementLine) } := by
    rw [first, station?_tell (w := read) here, step]
    simp [Station.after, Station.become]
  have face : asked.face? c = some (c, .open, []) := by
    rw [first, (abides_tell read k _).face?, taken]
  have silent : asked.received c = w.received c := by
    rw [first, received_tell (w := read) here taken, received_take, step]
    exact List.append_nil _
  -- The acknowledgement is written.
  obtain ⟨d, found, seen⟩ := Option.map_eq_some_iff.mp face
  have client : d.client = .open := congrArg (fun face => face.2.1) seen
  have second : asked.act k = asked.tell k (.wrote acknowledgementLine.length) :=
    act_eq acknowledging (by simp [stationStep?, writing, number, found, client])
  refine ⟨?_, _, (congrArg (station? · k) second).trans (station?_tell acknowledging _), rfl, ?_⟩
  · refine (congrArg (received · c) second).trans ?_
    rw [received_tell acknowledging face, silent]
    simp [Listener.step, writtenTo]
  · simp [Station.after, Station.become, Listener.step]

namespace Unanswered

variable {k c calls : Nat} {place : FileTree.Place} {phase : Phase} {backlog : List Nat} {w : World}

/-- A listener that goes on, or closes connections, answers nobody. -/
theorem tell (waits : Unanswered k c calls place phase backlog w) {e : Listener.Event} {next : Phase}
    {effects : List Effect} (step : ∀ polling, ∃ polling',
      Listener.step { phase, polling } e = ({ phase := next, polling := polling' }, effects))
    (closes : ∀ effect ∈ effects, ∃ n, effect = .close n) :
    Unanswered k c calls place next backlog (w.tell k e) := by
  have abides := abides_tell w k e
  have kept : .release ∉ effects := by
    intro released
    obtain ⟨n, closed⟩ := closes _ released
    cases closed
  have uncalled : effects.count .callBack = 0 := by
    refine List.count_eq_zero.mpr fun called => ?_
    obtain ⟨n, closed⟩ := closes _ called
    cases closed
  have unwritten : writtenTo c effects = [] := by
    refine List.flatten_eq_nil_iff.mpr fun bytes member => ?_
    obtain ⟨effect, done, wrote⟩ := List.mem_filterMap.mp member
    obtain ⟨n, rfl⟩ := closes effect done
    cases wrote
  obtain ⟨polling, here⟩ := waits.here
  obtain ⟨polling', step⟩ := step polling
  refine ⟨⟨polling', ?_⟩, abides.starved.trans waits.fed, fun n member other => ?_,
    (abides.face? c).trans waits.asks, ?_⟩
  · rw [station?_tell here, step]
    simp [Station.after, Station.become, kept, uncalled]
  · rw [isOver, abides.face?]
    exact waits.spent n member other
  · rw [received_tell here waits.asks, step, waits.silent, unwritten]
    rfl

/-- Who comes to nothing is not the one that asks. -/
theorem ne_of_isOver (waits : Unanswered k c calls place phase backlog w) {reader : RequestReader}
    {n : Nat} (spent : w.isOver reader n = true) : n ≠ c := by
  rintro rfl
  simp [isOver, waits.asks] at spent

theorem accept {n : Nat} (waits : Unanswered k c calls place .accepting (n :: backlog) w) :
    Unanswered k c calls place (.serving n {}) backlog (w.act k) ∧
      (w.act k).face? n = w.face? n := by
  obtain ⟨polling, here⟩ := waits.here
  have acted : w.act k =
      (w.mapStation k fun s => { s with backlog }).tell k (.accepted n) :=
    act_eq here (by simp [stationStep?, waits.fed])
  have taken := station?_mapStation w k (f := fun s => { s with backlog }) (fun _ => rfl) k
  rw [if_pos rfl, here] at taken
  have popped : Unanswered k c calls place .accepting backlog
      (w.mapStation k fun s => { s with backlog }) :=
    ⟨⟨polling, taken⟩, waits.fed, fun m member => waits.spent m (List.mem_cons_of_mem _ member),
      waits.asks, waits.silent⟩
  rw [acted]
  exact ⟨popped.tell (fun _ => ⟨false, rfl⟩) fun _ done => absurd done List.not_mem_nil,
    (abides_tell _ k _).face? n⟩

theorem hangUp {n : Nat} {reader : RequestReader}
    (waits : Unanswered k c calls place (.serving n reader) backlog w) {client : ClientSide}
    (there : w.face? n = some (n, client, [])) (ended : client ≠ .open) :
    Unanswered k c calls place .accepting backlog (w.act k) := by
  obtain ⟨d, found, face⟩ := Option.map_eq_some_iff.mp there
  obtain ⟨rfl, rfl, unread⟩ : d.number = n ∧ d.client = client ∧ d.unread = [] := by
    simpa [Connection.face] using face
  obtain ⟨polling, here⟩ := waits.here
  have acted : w.act k = w.tell k .ended :=
    act_eq here (by simp [stationStep?, found, unread, ended])
  rw [acted]
  exact waits.tell (fun _ => ⟨false, rfl⟩) fun effect done => ⟨d.number, List.mem_singleton.mp done⟩

theorem read {n : Nat} {reader next : RequestReader}
    (waits : Unanswered k c calls place (.serving n reader) backlog w) {client : ClientSide}
    {unread : List UInt8} (there : w.face? n = some (n, client, unread)) (sent : unread ≠ [])
    (goesOn : reader.feed unread = some next) (other : n ≠ c) :
    Unanswered k c calls place (.serving n next) backlog (w.act k) ∧
      (w.act k).face? n = some (n, client, []) := by
  have emptied := face?_take_all there
  have taken : Unanswered k c calls place (.serving n reader) backlog
      (w.mapConnection n fun d => d.take unread.length) := by
    refine ⟨waits.here, waits.fed, fun m member differs => ?_, ?_, ?_⟩
    · have spent := waits.spent m member differs
      rw [isOver] at spent ⊢
      by_cases mine : m = n
      · subst mine
        rw [there] at spent
        rw [emptied]
        simp only [Option.any_some, Bool.and_eq_true] at spent ⊢
        exact ⟨spent.1, rfl⟩
      · rwa [face?_take, if_neg mine]
    · rw [face?_take, if_neg other.symm]
      exact waits.asks
    · rw [received_take]
      exact waits.silent
  have step (polling : Bool) : Listener.step { phase := .serving n reader, polling }
      (.received unread) = ({ phase := .serving n next, polling }, []) := by
    rw [Listener.step_received rfl rfl, goesOn]
  obtain ⟨_, here⟩ := waits.here
  rw [act_read there here rfl rfl rfl sent]
  have read := taken.tell (fun polling => ⟨polling, step polling⟩)
    fun _ done => absurd done List.not_mem_nil
  refine ⟨read, ?_⟩
  rw [(abides_tell _ k _).face?, emptied]

/-- Who comes to nothing is let go. -/
theorem serve {n : Nat} {reader : RequestReader}
    (waits : Unanswered k c calls place (.serving n reader) backlog w)
    (spent : w.isOver reader n = true) :
    ∃ i, Unanswered k c calls place .accepting backlog ((act · k)^[i] w) := by
  have other := waits.ne_of_isOver spent
  obtain ⟨client, unread, next, there, ended, goesOn⟩ := exists_of_isOver spent
  by_cases sent : unread = []
  · subst sent
    exact ⟨1, waits.hangUp there ended⟩
  · obtain ⟨read, emptied⟩ := waits.read there sent goesOn other
    exact ⟨2, read.hangUp emptied ended⟩

theorem answered {ahead : List Nat} (fresh : c ∉ ahead)
    (waits : Unanswered k c calls place .accepting (ahead ++ [c]) w) :
    ∃ i, Answered k c calls [] ((act · k)^[i] w) := by
  induction ahead generalizing w with
  | nil =>
    have serving := waits.accept.1
    obtain ⟨_, here⟩ := serving.here
    have answered := answer here rfl rfl serving.asks (by decide)
    rw [serving.silent] at answered
    exact ⟨3, answered⟩
  | cons n ahead ih =>
    obtain ⟨other, fresh⟩ := not_or.mp (mt List.mem_cons.mpr fresh)
    obtain ⟨serving, face⟩ := waits.accept
    have spent : (w.act k).isOver {} n = true := by
      rw [isOver, face]
      exact waits.spent n List.mem_cons_self (Ne.symm other)
    obtain ⟨i, served⟩ := serving.serve spent
    obtain ⟨j, answered⟩ := ih fresh served
    refine ⟨j + (i + 1), ?_⟩
    rwa [Function.iterate_add_apply]

end Unanswered

end Overseer.Shutdown.World
