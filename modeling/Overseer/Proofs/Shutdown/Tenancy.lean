import Mathlib.Data.List.Nodup
import Overseer.Proofs.Shutdown.Neighbours

/-!
Who owns the path of a channel. Listeners begin and end on it one after the other, whoever likes
connects to them, and while nobody listens other programs leave there what they like. The socket at
the path is that of the listener that is live, and there is never another.
-/
namespace Overseer

def FileTree.Node.isSocket : FileTree.Node → Bool
  | .socket _ => true
  | _ => false

namespace Shutdown

open FileTree (Place Node)

/-- The system takes the path of a channel for a socket's, which it makes at this place if nothing
is there. -/
structure Accepts (w : World) (name : String) (place : Place) : Prop where
  text : holdsNul name = false
  address : addressError? (w.socketPath name) = none
  below : place ≠ []
  parent : w.files.node? place.dropLast ≠ some .fixed
  named : socketPlace (w.files.erase place) (w.socketPath name) = .ok place

/-- Nobody listens and nobody is connected. A socket that is at the place is a dead one. -/
structure Vacant (w : World) (place : Place) : Prop where
  stations : w.stations = []
  connections : w.connections = []
  fed : w.starved = false
  unowned : ∀ number, w.files.node? place ≠ some (.socket (some number))

def Station.isLive (s : Station) : Bool := s.listener.outcome?.isNone

namespace World

def act (w : World) (station : Nat) : World :=
  ((w.station? station).bind w.stationStep?).getD w

def isOwned (w : World) : Bool := w.stations.any Station.isLive

theorem bind_eq_ok {w : World} {name : String} {place : Place}
    (address : addressError? (w.socketPath name) = none) (fed : w.starved = false)
    (named : socketPlace w.files (w.socketPath name) = .ok place)
    (parent : w.files.node? place.dropLast ≠ some .fixed) :
    w.bind name = (.ok w.next,
      { w with
        next := w.next + 1
        files := w.files.put place (.socket (some w.next))
        stations := w.stations ++ [{ number := w.next, place }] }) := by
  simp only [bind, address, fed, named, parent, if_false, Bool.false_eq_true]

end World

namespace Tenancy

inductive Event where
  | listen
  | stop (station : Nat)
  | act (station : Nat)
  /-- Anything else that can come of an accept, a read or a write. -/
  | tell (station : Nat) (e : Listener.Event)
  | connect
  | send (connection : Nat) (bytes : List UInt8)
  | halfClose (connection : Nat)
  | close (connection : Nat)
  | elapse (ms : Nat)
  /-- Another program leaves something where nothing is. -/
  | leave (node : Node)
  | remove

/-- What another program can leave: a socket of its own is a dead one. -/
def isForeign : Node → Bool
  | .socket (some _) => false
  | _ => true

def move (name : String) (place : Place) (w : World) : Event → World
  | .listen => (w.listen name).2
  | .stop station => w.stop station
  | .act station => w.act station
  | .tell station e => w.tell station e
  | .connect =>
    match w.connect name .open with
    | .ok (_, w) => w
    | .error _ => w
  | .send connection bytes => (w.send connection bytes).2
  | .halfClose connection => w.halfClose connection
  | .close connection => w.close connection
  | .elapse ms => { w with now := w.now + ms }
  | .leave node =>
    if !w.isOwned && (w.files.node? place).isNone && isForeign node then
      { w with files := w.files.put place node }
    else w
  | .remove => if w.isOwned then w else { w with files := w.files.erase place }

def run (name : String) (place : Place) (w : World) : List Event → World
  | [] => w
  | e :: events => run name place (move name place w e) events

structure Invariant (opening : World) (place : Place) (w : World) : Prop where
  temporary : w.temporary = opening.temporary
  fed : w.starved = false
  elsewhere : FileTree.Elsewhere place w.files opening.files
  placed : ∀ s ∈ w.stations, s.place = place
  numbered : ∀ s ∈ w.stations, s.number < w.next
  distinct : (w.stations.map Station.number).Nodup
  joined : ∀ n ∈ w.connections.map Connection.number, n < w.next
  owns : ∀ s ∈ w.stations, s.isLive = true →
    w.files.node? place = some (.socket (some s.number))
  owned : ∀ k, w.files.node? place = some (.socket (some k)) →
    ∃ s ∈ w.stations, s.number = k ∧ s.isLive = true

variable {opening w : World} {place : Place} {name : String}

theorem invariant_vacant (vacant : Vacant opening place) : Invariant opening place opening := by
  obtain ⟨stations, connections, fed, unowned⟩ := vacant
  refine ⟨rfl, fed, .refl place _, ?_, ?_, ?_, ?_, ?_, fun k there => absurd there (unowned k)⟩ <;>
    simp [stations, connections]

namespace Invariant

/-- The stations go on where they are, and the path belongs to the one that is live then. -/
theorem update (inv : Invariant opening place w) {w' : World} {f : Station → Station}
    (same : ∀ s ∈ w.stations, (f s).number = s.number ∧ (f s).place = s.place)
    (stations : w'.stations = w.stations.map f)
    (elsewhere : FileTree.Elsewhere place w'.files w.files)
    (temporary : w'.temporary = w.temporary) (starved : w'.starved = w.starved)
    (next : w.next ≤ w'.next) (joined : ∀ n ∈ w'.connections.map Connection.number, n < w'.next)
    (owns : ∀ s ∈ w.stations, (f s).isLive = true →
      w'.files.node? place = some (.socket (some s.number)))
    (owned : ∀ k, w'.files.node? place = some (.socket (some k)) →
      ∃ s ∈ w.stations, s.number = k ∧ (f s).isLive = true) :
    Invariant opening place w' := by
  have member (s' : Station) (there : s' ∈ w'.stations) : ∃ s ∈ w.stations, f s = s' := by
    rw [stations] at there
    exact List.mem_map.mp there
  refine ⟨temporary.trans inv.temporary, starved.trans inv.fed, elsewhere.trans inv.elsewhere, ?_,
    ?_, ?_, joined, ?_, ?_⟩
  · intro s' there
    obtain ⟨s, here, rfl⟩ := member s' there
    exact (same s here).2.trans (inv.placed s here)
  · intro s' there
    obtain ⟨s, here, rfl⟩ := member s' there
    rw [(same s here).1]
    exact Nat.lt_of_lt_of_le (inv.numbered s here) next
  · have numbers : (w.stations.map f).map Station.number = w.stations.map Station.number := by
      rw [List.map_map]
      exact List.map_congr_left fun s here => (same s here).1
    rw [stations, numbers]
    exact inv.distinct
  · intro s' there alive
    obtain ⟨s, here, rfl⟩ := member s' there
    rw [(same s here).1]
    exact owns s here alive
  · intro k there
    obtain ⟨s, here, number, alive⟩ := owned k there
    exact ⟨f s, stations ▸ List.mem_map_of_mem here, (same s here).1.trans number, alive⟩

/-- None of them finishes, and the files are as they were. -/
theorem keep (inv : Invariant opening place w) {w' : World} {f : Station → Station}
    (same : ∀ s ∈ w.stations,
      (f s).number = s.number ∧ (f s).place = s.place ∧ (f s).isLive = s.isLive)
    (stations : w'.stations = w.stations.map f) (files : w'.files = w.files)
    (temporary : w'.temporary = w.temporary) (starved : w'.starved = w.starved)
    (next : w.next ≤ w'.next) (joined : ∀ n ∈ w'.connections.map Connection.number, n < w'.next) :
    Invariant opening place w' := by
  refine inv.update (fun s here => ⟨(same s here).1, (same s here).2.1⟩) stations
    (files ▸ .refl place _) temporary starved next joined (fun s here alive => ?_) fun k there => ?_
  · rw [files]
    exact inv.owns s here ((same s here).2.2.symm.trans alive)
  · rw [files] at there
    obtain ⟨s, here, number, alive⟩ := inv.owned k there
    exact ⟨s, here, number, (same s here).2.2.trans alive⟩

theorem mapStation (inv : Invariant opening place w) (k : Nat) {f : Station → Station}
    (same : ∀ s, (f s).number = s.number ∧ (f s).place = s.place ∧ (f s).listener = s.listener) :
    Invariant opening place (w.mapStation k f) := by
  refine inv.keep (f := fun s => if s.number = k then f s else s) (fun s _ => ?_) rfl rfl rfl rfl
    (Nat.le_refl _) inv.joined
  split
  · obtain ⟨number, place, listener⟩ := same s
    exact ⟨number, place, congrArg (fun l => l.outcome?.isNone) listener⟩
  · exact ⟨rfl, rfl, rfl⟩

theorem mapConnection (inv : Invariant opening place w) (n : Nat) {f : Connection → Connection}
    (same : ∀ c, (f c).number = c.number) : Invariant opening place (w.mapConnection n f) := by
  refine inv.keep (f := id) (fun _ _ => ⟨rfl, rfl, rfl⟩) (List.map_id _).symm rfl rfl rfl
    (Nat.le_refl _) ?_
  rw [World.numbers_mapConnection w n same]
  exact inv.joined

theorem attach (inv : Invariant opening place w) (owner : Nat) (client : ClientSide) :
    Invariant opening place (w.attach owner { number := w.next, client }) := by
  refine inv.keep (f := fun s =>
    if s.number = owner then { s with backlog := s.backlog ++ [w.next], ready := true } else s)
    (fun s _ => ?_) rfl rfl rfl rfl (Nat.le_succ _) ?_
  · split <;> exact ⟨rfl, rfl, rfl⟩
  · intro n member
    simp only [World.attach, List.map_append, List.map_singleton, List.mem_append,
      List.mem_singleton] at member ⊢
    rcases member with old | rfl
    · exact Nat.lt_succ_of_lt (inv.joined n old)
    · exact Nat.lt_succ_self _

theorem station?_eq_some_iff (inv : Invariant opening place w) {k : Nat} {s : Station} :
    w.station? k = some s ↔ s ∈ w.stations ∧ s.number = k := by
  constructor
  · intro found
    exact ⟨List.mem_of_find?_eq_some found, by simpa using List.find?_some found⟩
  · rintro ⟨member, rfl⟩
    cases found : w.station? s.number with
    | none => simpa using List.find?_eq_none.mp found s member
    | some t =>
      have number : t.number = s.number := by simpa using List.find?_some found
      rw [List.inj_on_of_nodup_map inv.distinct (List.mem_of_find?_eq_some found) member number]

/-- Two live listeners are the same one. -/
theorem alone (inv : Invariant opening place w) {s t : Station} (here : s ∈ w.stations)
    (there : t ∈ w.stations) (live : s.isLive = true) (alive : t.isLive = true) : s = t := by
  have same := (inv.owns s here live).symm.trans (inv.owns t there alive)
  have number : s.number = t.number := by simpa using same
  exact List.inj_on_of_nodup_map inv.distinct here there number

/-- Who finishes gives up the path, and it was its own. -/
theorem course_tell (inv : Invariant opening place w) (below : place ≠ []) {k : Nat} {s : Station}
    (found : w.station? k = some s) (e : Listener.Event) :
    w.files.node? place = some (.socket (some k)) ∧ (s.listener.step e).1.outcome?.isNone = false ∧
        (w.tell k e).files.node? place = none ∨
      (s.listener.step e).1.outcome?.isNone = s.isLive ∧ (w.tell k e).files = w.files := by
  obtain ⟨here, number⟩ := inv.station?_eq_some_iff.mp found
  have files := World.tell_files found e
  rw [inv.placed s here] at files
  by_cases releases : .release ∈ (s.listener.step e).2
  · obtain ⟨unfinished, finished⟩ := (s.listener.release_mem_iff e).mp releases
    have owns := inv.owns s here (by rw [Station.isLive, unfinished]; rfl)
    rw [number] at owns
    rw [if_pos releases] at files
    refine .inl ⟨owns, ?_, files ▸ FileTree.node?_unlink below owns rfl⟩
    simpa [Option.isSome_iff_ne_none] using finished
  · refine .inr ⟨?_, files.trans (if_neg releases)⟩
    rw [Station.isLive]
    cases outcome : s.listener.outcome? with
    | some o => rw [s.listener.outcome?_step outcome]
    | none =>
      have still := mt (s.listener.release_mem_iff e).mpr releases
      simpa [outcome] using still

/-- Whoever has finished has given up the path, and it was its own. -/
theorem tell (inv : Invariant opening place w) (below : place ≠ []) (k : Nat)
    (e : Listener.Event) : Invariant opening place (w.tell k e) := by
  cases found : w.station? k with
  | none => rwa [World.tell_of_station?_eq_none found]
  | some s =>
    obtain ⟨here, number⟩ := inv.station?_eq_some_iff.mp found
    have abides := World.abides_tell w k e
    have stations := World.tell_stations found e
    have mine (t : Station) (there : t ∈ w.stations) (same : t.number = k) : t = s :=
      List.inj_on_of_nodup_map inv.distinct there here (same.trans number.symm)
    have joined : ∀ n ∈ (w.tell k e).connections.map Connection.number, n < (w.tell k e).next := by
      rw [abides.numbers, abides.next]
      exact inv.joined
    rcases inv.course_tell below found e with ⟨own, finished, freed⟩ | ⟨same, kept⟩
    · refine inv.update (fun t _ => ?_) stations ?_ abides.temporary abides.starved
        (Nat.le_of_eq abides.next.symm) joined (fun t was alive => ?_) fun m there => ?_
      · split <;> exact ⟨rfl, rfl⟩
      · rw [World.tell_files found e, inv.placed s here]
        split
        · exact (FileTree.Elsewhere.refl place _).unlink below
        · exact .refl place _
      · -- Nobody else was live, since the path belonged to this one.
        by_cases hit : t.number = k
        · rw [if_pos hit, mine t was hit] at alive
          cases finished.symm.trans alive
        · rw [if_neg hit] at alive
          have other := (inv.owns t was alive).symm.trans own
          exact absurd (by simpa using other) hit
      · rw [freed] at there
        cases there
    · refine inv.keep (fun t was => ?_) stations kept abides.temporary abides.starved
        (Nat.le_of_eq abides.next.symm) joined
      split
      next hit =>
        obtain rfl := mine t was hit
        exact ⟨rfl, rfl, same⟩
      next => exact ⟨rfl, rfl, rfl⟩

/-- Nobody is there but whoever the socket at the path belongs to. -/
theorem isOwned_eq_false_iff (inv : Invariant opening place w) :
    w.isOwned = false ↔ ∀ k, w.files.node? place ≠ some (.socket (some k)) := by
  simp only [World.isOwned, List.any_eq_false, Bool.not_eq_true]
  constructor
  · intro nobody k there
    obtain ⟨s, here, _, live⟩ := inv.owned k there
    rw [nobody s here] at live
    cases live
  · intro unowned s here
    cases live : s.isLive with
    | false => rfl
    | true => exact absurd (inv.owns s here live) (unowned s.number)

theorem isLive_of_mem (inv : Invariant opening place w) {s : Station} (here : s ∈ w.stations)
    (live : s.isLive = true) : w.isLive (some s.number) = true := by
  rw [World.isLive, Option.any_some, inv.station?_eq_some_iff.mpr ⟨here, rfl⟩]
  exact live

/-- The path leads to its place whatever is there: what is there is not gone through. -/
theorem socketPlace_eq (inv : Invariant opening place w) (accepts : Accepts opening name place)
    {files : FileTree} (same : FileTree.Elsewhere place files w.files) :
    socketPlace files (w.socketPath name) = .ok place := by
  have more (other : Place) (node : Node)
      (there : (opening.files.erase place).node? other = some node) :
      files.node? other = some node := by
    rw [FileTree.node?_erase _ accepts.below] at there
    split at there
    · cases there
    next outside => rw [(same.trans inv.elsewhere) other outside, there]
  have named := accepts.named
  rw [World.socketPath, inv.temporary]
  rw [World.socketPath] at named
  unfold socketPlace FileTree.locate at named ⊢
  split
  next e wrong =>
    rw [wrong] at named
    cases named
  next fine =>
    rw [fine] at named
    exact FileTree.approach_mono more named

theorem bind_eq (inv : Invariant opening place w) (accepts : Accepts opening name place)
    {files : FileTree} (same : FileTree.Elsewhere place files w.files) :
    ({ w with files } : World).bind name = (.ok w.next,
      { w with
        next := w.next + 1
        files := files.put place (.socket (some w.next))
        stations := w.stations ++ [{ number := w.next, place }] }) := by
  have above : ¬place <+: place.dropLast := by
    intro inside
    have shorter := inside.length_le
    have long := List.length_pos_iff.mpr accepts.below
    rw [List.length_dropLast] at shorter
    omega
  refine World.bind_eq_ok (w := { w with files }) ?_ inv.fed (inv.socketPlace_eq accepts same) ?_
  · rw [World.socketPath, inv.temporary]
    exact accepts.address
  · rw [(same.trans inv.elsewhere) _ above]
    exact accepts.parent

end Invariant

/-- What comes of listening: the path is another listener's, something is there that is no socket,
or it is free by then. -/
inductive Listened (w : World) (place : Place) : Except SystemError Nat × World → Prop where
  | inUse (s : Station) (here : s ∈ w.stations) (live : s.isLive = true) :
      Listened w place
        (.error World.inUse, w.attach s.number { number := w.next, client := .closed })
  | blocked (node : Node) (there : w.files.node? place = some node)
      (plain : node.isSocket = false) : Listened w place (.error World.notSocket, w)
  | bound (files : FileTree) (same : FileTree.Elsewhere place files w.files)
      (free : ∀ node, w.files.node? place = some node → node = .socket none) :
      Listened w place (.ok w.next,
        { w with
          next := w.next + 1
          files := files.put place (.socket (some w.next))
          stations := w.stations ++ [{ number := w.next, place }] })

theorem Invariant.listened (inv : Invariant opening place w) (accepts : Accepts opening name place) :
    Listened w place (w.listen name) := by
  have named := inv.socketPlace_eq accepts (.refl place w.files)
  rw [World.listen]
  cases there : w.files.node? place with
  | none =>
    have cleared : w.clearStale name = (.ok (), w) := by
      simp [World.clearStale, accepts.text, named, there]
    rw [cleared]
    dsimp only
    rw [show w.bind name = _ from inv.bind_eq accepts (.refl place w.files)]
    exact .bound w.files (.refl place _) fun node at_ => by rw [there] at at_; cases at_
  | some node =>
    cases node with
    | socket owner =>
      cases owner with
      | none =>
        have cleared : w.clearStale name = (.ok (), { w with files := w.files.unlink place }) := by
          simp [World.clearStale, accepts.text, named, there, World.probe, inv.fed]
        have same := (FileTree.Elsewhere.refl place w.files).unlink accepts.below
        rw [cleared]
        dsimp only
        rw [inv.bind_eq accepts same]
        exact .bound _ same fun node at_ => by rw [there] at at_; cases at_; rfl
      | some k =>
        obtain ⟨s, here, rfl, live⟩ := inv.owned k there
        have cleared : w.clearStale name = (.error World.inUse,
            w.attach s.number { number := w.next, client := .closed }) := by
          simp [World.clearStale, accepts.text, named, there, World.probe, inv.fed,
            inv.isLive_of_mem here live]
        rw [cleared]
        exact .inUse s here live
    | directory | fixed | file | link =>
      have cleared : w.clearStale name = (.error World.notSocket, w) := by
        simp [World.clearStale, accepts.text, named, there]
      rw [cleared]
      exact .blocked _ there rfl

namespace Invariant

theorem listen (inv : Invariant opening place w) (accepts : Accepts opening name place) :
    Invariant opening place (w.listen name).2 := by
  have listened := inv.listened accepts
  generalize w.listen name = result at listened ⊢
  cases listened with
  | inUse s here live => exact inv.attach s.number .closed
  | blocked node there plain => exact inv
  | bound files same free =>
    have dead (s : Station) (here : s ∈ w.stations) : s.isLive = false := by
      cases live : s.isLive with
      | false => rfl
      | true => cases free _ (inv.owns s here live)
    have own : (files.put place (.socket (some w.next))).node? place =
        some (.socket (some w.next)) := by
      rw [FileTree.node?_put _ accepts.below, if_pos rfl]
    refine ⟨inv.temporary, inv.fed, (same.put accepts.below _).trans inv.elsewhere, ?_, ?_, ?_, ?_,
      ?_, ?_⟩
    · intro s there
      rcases List.mem_append.mp there with old | new
      · exact inv.placed s old
      · rw [List.mem_singleton.mp new]
    · intro s there
      rcases List.mem_append.mp there with old | new
      · exact Nat.lt_succ_of_lt (inv.numbered s old)
      · rw [List.mem_singleton.mp new]
        exact Nat.lt_succ_self _
    · have fresh : w.next ∉ w.stations.map Station.number := by
        intro used
        obtain ⟨s, here, number⟩ := List.mem_map.mp used
        exact absurd (inv.numbered s here) (by omega)
      simpa [List.nodup_append] using ⟨inv.distinct, fun s here same =>
        fresh (same ▸ List.mem_map_of_mem here)⟩
    · exact fun n member => Nat.lt_succ_of_lt (inv.joined n member)
    · intro s there live
      rcases List.mem_append.mp there with old | new
      · rw [dead s old] at live
        cases live
      · rw [List.mem_singleton.mp new]
        exact own
    · intro k there
      have mine : k = w.next := by simpa [own, eq_comm] using there
      exact ⟨_, List.mem_append_right _ (List.mem_singleton_self _), mine.symm, rfl⟩

theorem prepared (inv : Invariant opening place w) {k : Nat} {w' : World}
    (prepared : w.Prepared k w') : Invariant opening place w' := by
  cases prepared with
  | nothing => exact inv
  | station f same => exact inv.mapStation k same
  | connection n f same => exact inv.mapConnection n same

theorem act (inv : Invariant opening place w) (below : place ≠ []) (k : Nat) :
    Invariant opening place (w.act k) := by
  rw [World.act]
  cases step : (w.station? k).bind w.stationStep? with
  | none => exact inv
  | some w' =>
    obtain ⟨s, _, moved⟩ := Option.bind_eq_some_iff.mp step
    obtain ⟨w₁, prepared, rfl | ⟨e, rfl⟩⟩ := World.prepared_of_stationStep? moved
    · exact inv.prepared prepared
    · exact (inv.prepared prepared).tell below s.number e

/-- What others do to the path while it is nobody's. -/
theorem leave (inv : Invariant opening place w) (vacated : w.isOwned = false) {files : FileTree}
    (elsewhere : FileTree.Elsewhere place files w.files)
    (unowned : ∀ k, files.node? place ≠ some (.socket (some k))) :
    Invariant opening place { w with files } := by
  refine { inv with elsewhere := elsewhere.trans inv.elsewhere, owns := ?_, owned := ?_ }
  · intro s here live
    have nobody := inv.isOwned_eq_false_iff.mp vacated s.number
    exact absurd (inv.owns s here live) nobody
  · exact fun k there => absurd there (unowned k)

theorem move (inv : Invariant opening place w) (accepts : Accepts opening name place) (e : Event) :
    Invariant opening place (move name place w e) := by
  cases e with
  | listen => exact inv.listen accepts
  | stop k | tell k e => exact inv.tell accepts.below k _
  | act k => exact inv.act accepts.below k
  | connect =>
    rw [Tenancy.move]
    split
    next made =>
      obtain ⟨owner, _, _, rfl⟩ := World.connect_eq made
      exact inv.attach owner .open
    next => exact inv
  | send n bytes =>
    simp only [Tenancy.move, World.send]
    split
    · exact inv
    · split
      · exact inv
      · split
        · exact inv.mapConnection n fun _ => rfl
        · exact inv
  | halfClose n => exact inv.mapConnection n World.number_halfClose
  | close n => exact inv.mapConnection n fun _ => rfl
  | elapse ms => exact { inv with }
  | leave node =>
    rw [Tenancy.move]
    split
    next may =>
      simp only [Bool.and_eq_true, Bool.not_eq_true'] at may
      obtain ⟨⟨vacated, _⟩, foreign⟩ := may
      refine inv.leave vacated ((FileTree.Elsewhere.refl _ _).put accepts.below node) fun k => ?_
      rw [FileTree.node?_put _ accepts.below, if_pos rfl]
      rintro ⟨⟩
      cases foreign
    next => exact inv
  | remove =>
    rw [Tenancy.move]
    split
    next => exact inv
    next owned =>
      refine inv.leave (Bool.eq_false_iff.mpr owned)
        ((FileTree.Elsewhere.refl _ _).erase accepts.below) fun k => ?_
      rw [FileTree.node?_erase _ accepts.below, if_pos List.prefix_rfl]
      simp

theorem run (inv : Invariant opening place w) (accepts : Accepts opening name place)
    (events : List Event) : Invariant opening place (run name place w events) := by
  induction events generalizing w with
  | nil => exact inv
  | cons e events ih => exact ih (inv.move accepts e)

end Invariant

end Tenancy

end Shutdown

end Overseer
