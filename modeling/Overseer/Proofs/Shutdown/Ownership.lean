import Overseer.Proofs.Shutdown.Serving

/-!
The path of a channel over any sequence of listeners, clients and other programs: who may listen,
what a listener that is refused does to the one that is live, and what becomes of the path.
-/
namespace Overseer.Shutdown

open FileTree (Place Node)

namespace World

def isBlocked (w : World) (place : Place) : Bool :=
  (w.files.node? place).any fun node => !node.isSocket

/-- The listener at a station is not stopped, and whoever it is busy with or who waits for it comes
to nothing. -/
def isIdle (w : World) (s : Station) : Bool :=
  !s.listener.stopping && s.backlog.all (w.isOver {}) &&
    match s.listener.phase with
    | .accepting => true
    | .serving n reader => w.isOver reader n
    | .pausing due => due ≤ w.now
    | .acknowledging _ _ | .finished _ => false

/-- If the request of the client that a listener serves has arrived in one world, it is answered from
another on. -/
def Answers (w w' : World) (s : Station) : Prop :=
  ∀ c reader unread, s.listener.phase = .serving c reader → s.listener.stopping = false →
    w.face? c = some (c, .open, unread) → reader.feed unread = none →
    Answered s.number c s.calls (w.received c) ((act · s.number)^[2] w')

/-- A client that connects now and asks the listener to exit is answered. -/
def Serves (w : World) (name : String) (k : Nat) : Prop :=
  ∃ s c w₁ w₂ n, w.station? k = some s ∧ w.connect name .open = .ok (c, w₁) ∧
    w₁.send c requestLine = (true, w₂) ∧ Answered k c s.calls [] ((act · k)^[n] w₂)

theorem isLive_of_isIdle {w : World} {s : Station} (idle : w.isIdle s = true) : s.isLive = true := by
  rw [Station.isLive, Option.isNone_iff_eq_none]
  cases outcome : s.listener.outcome? with
  | none => rfl
  | some o => simp [isIdle, (s.listener.outcome?_eq_some_iff o).mp outcome] at idle

theorem idle_cases {w : World} {s : Station} (idle : w.isIdle s = true) :
    s.listener.stopping = false ∧ (∀ n ∈ s.backlog, w.isOver {} n = true) ∧
      (s.listener.phase = .accepting ∨
        (∃ n reader, s.listener.phase = .serving n reader ∧ w.isOver reader n = true) ∨
        ∃ due, s.listener.phase = .pausing due ∧ due ≤ w.now) := by
  simp only [isIdle, Bool.and_eq_true, Bool.not_eq_true', List.all_eq_true] at idle
  obtain ⟨⟨free, spent⟩, waits⟩ := idle
  refine ⟨free, spent, ?_⟩
  cases phase : s.listener.phase with
  | accepting => exact .inl rfl
  | serving n reader => exact .inr (.inl ⟨n, reader, rfl, by simpa [phase] using waits⟩)
  | pausing due => exact .inr (.inr ⟨due, rfl, by simpa [phase] using waits⟩)
  | acknowledging n rest | finished o => simp [phase] at waits

theorem station?_attach (w : World) (owner : Nat) (c : Connection) (k : Nat) :
    (w.attach owner c).station? k =
      if k = owner then (w.station? owner).map fun s =>
        { s with backlog := s.backlog ++ [c.number], ready := true }
      else w.station? k :=
  station?_mapStation w owner
    (f := fun s => { s with backlog := s.backlog ++ [c.number], ready := true }) (fun _ => rfl) k

section

variable {w : World} (fresh : ∀ n ∈ w.connections.map Connection.number, n < w.next)

include fresh

theorem connection?_next : w.connection? w.next = none := by
  refine List.find?_eq_none.mpr fun d member => ?_
  have below := fresh d.number (List.mem_map_of_mem member)
  simpa using Nat.ne_of_lt below

theorem face?_attach (owner : Nat) (client : ClientSide) (n : Nat) :
    (w.attach owner { number := w.next, client }).face? n =
      if n = w.next then some (w.next, client, []) else w.face? n := by
  rw [face?, connection?_attach]
  by_cases new : n = w.next
  · subst new
    simp [connection?_next fresh, Connection.face]
  · have other : w.next ≠ n := Ne.symm new
    simp [new, other, face?]

theorem ne_next_of_isOver {reader : RequestReader} {n : Nat} (spent : w.isOver reader n = true) :
    n ≠ w.next := by
  rintro rfl
  simp [isOver, face?, connection?_next fresh] at spent

theorem isOver_attach (owner : Nat) (client : ClientSide) {reader : RequestReader} {n : Nat}
    (spent : w.isOver reader n = true) :
    (w.attach owner { number := w.next, client }).isOver reader n = true := by
  rwa [isOver, face?_attach fresh, if_neg (ne_next_of_isOver fresh spent)]

/-- Who has come and gone is no more in the way than those who had before. -/
theorem isIdle_attach (owner : Nat) {s : Station} (idle : w.isIdle s = true) :
    (w.attach owner { number := w.next, client := .closed }).isIdle
      { s with backlog := s.backlog ++ [w.next], ready := true } = true := by
  obtain ⟨free, gone, phase⟩ := idle_cases idle
  have spent {reader : RequestReader} {n : Nat} (gone : w.isOver reader n = true) :=
    isOver_attach fresh owner .closed gone
  have empty : (w.attach owner { number := w.next, client := .closed }).isOver {} w.next = true := by
    rw [isOver, face?_attach fresh, if_pos rfl]
    rfl
  have waiting : (s.backlog ++ [w.next]).all
      ((w.attach owner { number := w.next, client := .closed }).isOver {}) = true := by
    refine List.all_eq_true.mpr fun n member => ?_
    rcases List.mem_append.mp member with old | new
    · exact spent (gone n old)
    · rwa [List.mem_singleton.mp new]
  rcases phase with accepting | ⟨n, reader, serving, done⟩ | ⟨due, pausing, past⟩
  · simp [isIdle, free, waiting, accepting]
  · simp [isIdle, free, waiting, serving, spent done]
  · have still : due ≤ (w.attach owner { number := w.next, client := .closed }).now := past
    simpa [isIdle, free, waiting, pausing] using still

/-- Who closes at once has come with nothing. -/
theorem attach_close (owner : Nat) (client : ClientSide) :
    (w.attach owner { number := w.next, client }).close w.next =
      w.attach owner { number := w.next, client := .closed } := by
  have others : w.connections.map (fun c => if c.number = w.next then c.close else c) =
      w.connections := by
    refine (List.map_congr_left fun d member => if_neg ?_).trans (List.map_id' _)
    exact Nat.ne_of_lt (fresh d.number (List.mem_map_of_mem member))
  simp only [attach, close, mapConnection, List.map_append, others, List.map_singleton, if_true]
  rfl

end

theorem listener_attach (w : World) (owner : Nat) (c : Connection) (k : Nat) :
    ((w.attach owner c).station? k).map Station.listener =
      (w.station? k).map Station.listener := by
  rw [station?_attach]
  split
  next same =>
    rw [same, Option.map_map]
    rfl
  next => rfl

def asked (w : World) (owner : Nat) : World :=
  (w.attach owner { number := w.next, client := .open }).mapConnection w.next
    fun c => c.put requestLine

theorem connection?_asked (w : World) (owner n : Nat) : (w.asked owner).connection? n =
    if n = w.next then
      ((w.attach owner { number := w.next, client := .open }).connection? w.next).map
        fun c => c.put requestLine
    else (w.attach owner { number := w.next, client := .open }).connection? n :=
  connection?_mapConnection _ w.next (f := fun c => c.put requestLine) (fun _ => rfl) n

section

variable {w : World} (fresh : ∀ n ∈ w.connections.map Connection.number, n < w.next)

include fresh

theorem isOver_asked (owner : Nat) {reader : RequestReader} {n : Nat}
    (spent : w.isOver reader n = true) : (w.asked owner).isOver reader n = true := by
  have attached := isOver_attach fresh owner .open spent
  rwa [isOver, face?, connection?_asked, if_neg (ne_next_of_isOver fresh spent)]

theorem unanswered_of_isIdle {s : Station} (fed : w.starved = false)
    (found : w.station? s.number = some s) (idle : w.isIdle s = true) :
    Unanswered s.number w.next s.calls s.place s.listener.phase (s.backlog ++ [w.next])
      (w.asked s.number) := by
  obtain ⟨free, gone, _⟩ := idle_cases idle
  have reached : (w.asked s.number).connection? w.next =
      some { number := w.next, client := .open, unread := requestLine } := by
    rw [connection?_asked, if_pos rfl, connection?_attach, connection?_next fresh]
    simp [Connection.put]
  refine ⟨?_, fed, fun n member other => ?_, ?_, ?_⟩
  · refine ⟨s.listener.polling, ?_⟩
    have come := station?_attach w s.number { number := w.next, client := .open } s.number
    rw [if_pos rfl, found] at come
    obtain ⟨number, place, ⟨phase, stopping, polling⟩, backlog, ready, calls⟩ := s
    obtain rfl : stopping = false := free
    exact come
  · have waiting : n ∈ s.backlog := by simpa [other] using member
    exact isOver_asked fresh s.number (gone n waiting)
  · rw [face?, reached]
    rfl
  · rw [received, reached]
    rfl

end

/-- The pause of a listener is over. -/
theorem Unanswered.resume {w : World} {k c calls due : Nat} {place : Place} {backlog : List Nat}
    (waits : Unanswered k c calls place (.pausing due) backlog w) (spent : due ≤ w.now) :
    Unanswered k c calls place .accepting backlog (w.act k) := by
  obtain ⟨_, here⟩ := waits.here
  have acted : w.act k = w.tell k .resumed := act_eq here (by simp [stationStep?, spent])
  rw [acted]
  exact waits.tell (fun _ => ⟨false, rfl⟩) fun _ done => absurd done List.not_mem_nil

end World

namespace Tenancy

variable {opening w : World} {name : String} {place : Place}

theorem Invariant.connectPlace_eq (inv : Invariant opening place w)
    (accepts : Accepts opening name place) {k : Nat}
    (there : w.files.node? place = some (.socket (some k))) :
    connectPlace w.files (w.socketPath name) = .ok place := by
  have named := inv.socketPlace_eq accepts (.refl place w.files)
  have stays : w.files.follow place = .ok place := by rw [FileTree.follow, there]
  unfold socketPlace FileTree.locate at named
  unfold connectPlace FileTree.resolve
  split
  next e wrong =>
    rw [wrong] at named
    cases named
  next fine =>
    rw [fine] at named
    exact FileTree.walk_of_approach named stays

/-- Whoever comes reaches the listener that is live. -/
theorem Invariant.connect_eq (inv : Invariant opening place w)
    (accepts : Accepts opening name place) {s : Station} (here : s ∈ w.stations)
    (live : s.isLive = true) (client : ClientSide) :
    w.connect name client = .ok (w.next, w.attach s.number { number := w.next, client }) := by
  have own := inv.owns s here live
  have address : addressError? (w.socketPath name) = none := by
    rw [World.socketPath, inv.temporary]
    exact accepts.address
  simp [World.connect, address, inv.fed, inv.connectPlace_eq accepts own, own,
    inv.isLive_of_mem here live]

theorem Invariant.serves (inv : Invariant opening place w) (accepts : Accepts opening name place)
    {s : Station} (here : s ∈ w.stations) (idle : w.isIdle s = true) : w.Serves name s.number := by
  have found := inv.station?_eq_some_iff.mpr ⟨here, rfl⟩
  have connects := inv.connect_eq accepts here (World.isLive_of_isIdle idle) .open
  have sends : (w.attach s.number { number := w.next, client := .open }).send w.next requestLine =
      (true, w.asked s.number) := by
    have some : requestLine ≠ [] := by decide
    simp [World.send, World.connection?_attach, World.connection?_next inv.joined, some,
      Connection.isWritable, World.asked]
  have waits := World.unanswered_of_isIdle inv.joined inv.fed found idle
  have answered : ∃ i, World.Answered s.number w.next s.calls []
      ((World.act · s.number)^[i] (w.asked s.number)) := by
    obtain ⟨_, gone, phase⟩ := World.idle_cases idle
    have fresh : w.next ∉ s.backlog :=
      fun waiting => World.ne_next_of_isOver inv.joined (gone _ waiting) rfl
    rcases phase with accepting | ⟨n, reader, serving, spent⟩ | ⟨due, pausing, past⟩
    · rw [accepting] at waits
      exact waits.answered fresh
    · rw [serving] at waits
      obtain ⟨i, served⟩ := waits.serve (World.isOver_asked inv.joined s.number spent)
      obtain ⟨j, answered⟩ := served.answered fresh
      refine ⟨j + i, ?_⟩
      rwa [Function.iterate_add_apply]
    · rw [pausing] at waits
      obtain ⟨i, answered⟩ := (waits.resume past).answered fresh
      exact ⟨i + 1, answered⟩
  obtain ⟨i, answered⟩ := answered
  exact ⟨s, w.next, _, w.asked s.number, i, found, connects, sends, answered⟩

theorem Invariant.answers (inv : Invariant opening place w) {s : Station} (here : s ∈ w.stations) :
    w.Answers w s :=
  fun _ _ _ serving free asks complete =>
    World.answer (inv.station?_eq_some_iff.mpr ⟨here, rfl⟩) serving free asks complete

theorem Invariant.answers_attach (inv : Invariant opening place w) {s : Station}
    (here : s ∈ w.stations) (owner : Nat) (client : ClientSide) :
    w.Answers (w.attach owner { number := w.next, client }) s := by
  intro c reader unread serving free asks complete
  have old : c ≠ w.next := by
    rintro rfl
    simp [World.face?, World.connection?_next inv.joined] at asks
  have still : (w.attach owner { number := w.next, client }).face? c = some (c, .open, unread) := by
    rwa [World.face?_attach inv.joined, if_neg old]
  have found := World.station?_attach w owner { number := w.next, client } s.number
  rw [← World.received_attach w owner { number := w.next, client } rfl]
  have mine := inv.station?_eq_some_iff.mpr ⟨here, rfl⟩
  by_cases owns : s.number = owner
  · subst owns
    rw [if_pos rfl, mine, Option.map_some] at found
    have answered := World.answer found serving free still complete
    exact answered
  · rw [if_neg owns, mine] at found
    exact World.answer found serving free still complete

/-- The path is as it was, or a listener that had it has given it up. -/
def Keeps (place : Place) (w w' : World) : Prop :=
  w'.files.node? place = w.files.node? place ∨
    (∃ k, w.files.node? place = some (.socket (some k))) ∧ w'.files.node? place = none

theorem keeps_of_files_eq {w' : World} (same : w'.files = w.files) : Keeps place w w' :=
  .inl (congrArg (FileTree.node? · place) same)

theorem Invariant.keeps_tell (inv : Invariant opening place w) (below : place ≠ []) (k : Nat)
    (e : Listener.Event) : Keeps place w (w.tell k e) := by
  cases found : w.station? k with
  | none => exact keeps_of_files_eq (by rw [World.tell_of_station?_eq_none found])
  | some s =>
    rcases inv.course_tell below found e with ⟨own, _, freed⟩ | ⟨_, same⟩
    · exact .inr ⟨⟨k, own⟩, freed⟩
    · exact keeps_of_files_eq same

theorem Invariant.keeps_act (inv : Invariant opening place w) (below : place ≠ []) (k : Nat) :
    Keeps place w (w.act k) := by
  rw [World.act]
  cases step : (w.station? k).bind w.stationStep? with
  | none => exact keeps_of_files_eq rfl
  | some w' =>
    obtain ⟨s, _, moved⟩ := Option.bind_eq_some_iff.mp step
    obtain ⟨w₁, prepared, next⟩ := World.prepared_of_stationStep? moved
    have same : w₁.files = w.files := by cases prepared <;> rfl
    rcases next with rfl | ⟨e, rfl⟩
    · exact keeps_of_files_eq same
    · have told := (inv.prepared prepared).keeps_tell below s.number e
      rwa [Keeps, same] at told

/-- Only who removes what is there, or a listener that has it, takes away what is at the path, but
for a dead socket. -/
theorem Invariant.keeps_move (inv : Invariant opening place w) (accepts : Accepts opening name place)
    {node : Node} (there : w.files.node? place = some node) (taken : node ≠ .socket none) {e : Event}
    (kept : e = .remove → w.isOwned = true) : Keeps place w (Tenancy.move name place w e) := by
  cases e with
  | listen =>
    have listened := inv.listened accepts
    rw [Tenancy.move]
    generalize w.listen name = result at listened ⊢
    cases listened with
    | inUse | blocked => exact keeps_of_files_eq rfl
    | bound files same free => exact absurd (free node there) taken
  | stop k | tell k e => exact inv.keeps_tell accepts.below k _
  | act k => exact inv.keeps_act accepts.below k
  | connect =>
    rw [Tenancy.move]
    split
    next made =>
      obtain ⟨owner, _, _, rfl⟩ := World.connect_eq made
      exact keeps_of_files_eq rfl
    next => exact keeps_of_files_eq rfl
  | send n bytes =>
    refine keeps_of_files_eq ?_
    simp only [Tenancy.move, World.send]
    split
    · rfl
    · split
      · rfl
      · split <;> rfl
  | halfClose n | close n | elapse ms => exact keeps_of_files_eq rfl
  | leave node' =>
    refine keeps_of_files_eq ?_
    simp [Tenancy.move, there]
  | remove =>
    refine keeps_of_files_eq ?_
    simp [Tenancy.move, kept rfl]

structure Orderly (name : String) (place : Place) (w : World) : Prop where
  alone : ∀ s ∈ w.stations, ∀ t ∈ w.stations, s.isLive = true → t.isLive = true → s = t
  own : ∀ s ∈ w.stations, s.isLive = true → w.files.node? place = some (.socket (some s.number))
  inUse_iff : (∃ e, (w.listen name).1 = .error e ∧ e.kind = .addrInUse) ↔ w.isOwned = true
  blocked_iff : (∃ e, (w.listen name).1 = .error e ∧ e.kind = .alreadyExists) ↔
    w.isBlocked place = true
  listens_iff : (∃ k, (w.listen name).1 = .ok k) ↔ w.isOwned = false ∧ w.isBlocked place = false
  listens : ∀ k, (w.listen name).1 = .ok k →
    ∃ s ∈ (w.listen name).2.stations, s.number = k ∧ s.isLive = true
  /-- A listener that is refused changes no file and no listener. -/
  refused : ∀ e, (w.listen name).1 = .error e → (w.listen name).2.files = w.files ∧
    ∀ k, ((w.listen name).2.station? k).map Station.listener = (w.station? k).map Station.listener
  /-- It is no more than a client that connects and closes, if that. -/
  probes : ∀ e, (w.listen name).1 = .error e → (w.listen name).2 = w ∨
    (w.listen name).2 = run name place w [.connect, .close w.next]
  answers : ∀ s ∈ w.stations, w.Answers w s
  answers_after : ∀ e, (w.listen name).1 = .error e →
    ∀ s ∈ w.stations, w.Answers (w.listen name).2 s
  serves : ∀ s ∈ w.stations, w.isIdle s = true → w.Serves name s.number
  serves_after : ∀ e, (w.listen name).1 = .error e →
    ∀ s ∈ w.stations, w.isIdle s = true → (w.listen name).2.Serves name s.number
  spared : ∀ e, e ≠ .remove → w.isBlocked place = true →
    (Tenancy.move name place w e).files.node? place = w.files.node? place
  freed : ∀ e, ∀ s ∈ w.stations, s.isLive = true →
    ∀ s' ∈ (Tenancy.move name place w e).stations, s'.number = s.number → s'.isLive = false →
    (Tenancy.move name place w e).files.node? place = none

theorem isOwned_of_mem {s : Station} (here : s ∈ w.stations) (live : s.isLive = true) :
    w.isOwned = true :=
  List.any_eq_true.mpr ⟨s, here, live⟩

theorem Invariant.listen_fst (inv : Invariant opening place w) (accepts : Accepts opening name place) :
    (w.listen name).1 =
      if w.isOwned then .error World.inUse
      else if w.isBlocked place then .error World.notSocket
      else .ok w.next := by
  have listened := inv.listened accepts
  have unowned (node : Node) (there : w.files.node? place = some node)
      (other : ∀ k, node ≠ .socket (some k)) : w.isOwned = false := by
    refine inv.isOwned_eq_false_iff.mpr fun k owned => other k ?_
    exact Option.some.inj (there.symm.trans owned)
  generalize w.listen name = result at listened ⊢
  cases listened with
  | inUse s here live => rw [isOwned_of_mem here live, if_pos rfl]
  | blocked node there plain =>
    have vacated := unowned node there fun k same => by rw [same] at plain; cases plain
    have blocked : w.isBlocked place = true := by simp [World.isBlocked, there, plain]
    rw [vacated, blocked]
    rfl
  | bound files same free =>
    have vacated : w.isOwned = false :=
      inv.isOwned_eq_false_iff.mpr fun k owned => by cases free _ owned
    have unblocked : w.isBlocked place = false := by
      refine Bool.eq_false_iff.mpr fun blocked => ?_
      obtain ⟨node, there, plain⟩ := (Option.any_eq_true ..).mp blocked
      rw [free node there] at plain
      cases plain
    rw [vacated, unblocked]
    rfl

theorem Invariant.isBlocked_of_isOwned (inv : Invariant opening place w) (owned : w.isOwned = true) :
    w.isBlocked place = false := by
  obtain ⟨s, here, live⟩ := List.any_eq_true.mp owned
  rw [World.isBlocked, inv.owns s here live]
  rfl

theorem Invariant.listens (inv : Invariant opening place w) (accepts : Accepts opening name place)
    {k : Nat} (listens : (w.listen name).1 = .ok k) :
    ∃ s ∈ (w.listen name).2.stations, s.number = k ∧ s.isLive = true := by
  have listened := inv.listened accepts
  generalize w.listen name = result at listens listened ⊢
  cases listened with
  | inUse | blocked => cases listens
  | bound =>
    cases listens
    exact ⟨_, List.mem_append_right _ (List.mem_singleton_self _), rfl, rfl⟩

/-- Who is refused has changed nothing, or has connected to the listener that is live. -/
theorem Invariant.refused_cases (inv : Invariant opening place w)
    (accepts : Accepts opening name place) {e : SystemError} (refused : (w.listen name).1 = .error e) :
    (w.listen name).2 = w ∨ ∃ s ∈ w.stations, s.isLive = true ∧
      (w.listen name).2 = w.attach s.number { number := w.next, client := .closed } := by
  have listened := inv.listened accepts
  generalize w.listen name = result at refused listened ⊢
  cases listened with
  | inUse s here live => exact .inr ⟨s, here, live, rfl⟩
  | blocked => exact .inl rfl
  | bound => cases refused

theorem Invariant.probes (inv : Invariant opening place w) (accepts : Accepts opening name place)
    {s : Station} (here : s ∈ w.stations) (live : s.isLive = true) :
    w.attach s.number { number := w.next, client := .closed } =
      Tenancy.run name place w [.connect, .close w.next] := by
  have connects := inv.connect_eq accepts here live .open
  rw [Tenancy.run, Tenancy.run, Tenancy.run, Tenancy.move, connects]
  exact (World.attach_close inv.joined s.number .open).symm

theorem Invariant.serves_attach (inv : Invariant opening place w)
    (accepts : Accepts opening name place) {s : Station} (here : s ∈ w.stations)
    (idle : w.isIdle s = true) :
    (w.attach s.number { number := w.next, client := .closed }).Serves name s.number := by
  have attached := inv.attach s.number .closed
  have found := World.station?_attach w s.number { number := w.next, client := .closed } s.number
  rw [if_pos rfl, inv.station?_eq_some_iff.mpr ⟨here, rfl⟩, Option.map_some] at found
  obtain ⟨member, _⟩ := attached.station?_eq_some_iff.mp found
  have served := attached.serves accepts member (World.isIdle_attach inv.joined s.number idle)
  exact served

theorem Invariant.spared (inv : Invariant opening place w) (accepts : Accepts opening name place)
    {e : Event} (removes : e ≠ .remove) (blocked : w.isBlocked place = true) :
    (Tenancy.move name place w e).files.node? place = w.files.node? place := by
  obtain ⟨node, there, plain⟩ := (Option.any_eq_true ..).mp blocked
  have taken : node ≠ .socket none := by
    rintro rfl
    cases plain
  rcases inv.keeps_move accepts there taken (fun same => absurd same removes) with same | ⟨own, _⟩
  · exact same
  · obtain ⟨k, own⟩ := own
    rw [Option.some.inj (there.symm.trans own)] at plain
    cases plain

theorem Invariant.freed (inv : Invariant opening place w) (accepts : Accepts opening name place)
    {e : Event} {s s' : Station} (here : s ∈ w.stations) (live : s.isLive = true)
    (there : s' ∈ (Tenancy.move name place w e).stations) (number : s'.number = s.number)
    (finished : s'.isLive = false) :
    (Tenancy.move name place w e).files.node? place = none := by
  have own := inv.owns s here live
  have moved := inv.move accepts e
  rcases inv.keeps_move accepts (e := e) own (by simp) (fun _ => isOwned_of_mem here live) with
    same | ⟨_, freed⟩
  · -- Whoever still has the path is live, and it is this one.
    obtain ⟨t, member, same, alive⟩ := moved.owned s.number (same.trans own)
    have mine := List.inj_on_of_nodup_map moved.distinct member there (same.trans number.symm)
    rw [mine, finished] at alive
    cases alive
  · exact freed

theorem Invariant.orderly (inv : Invariant opening place w) (accepts : Accepts opening name place) :
    Orderly name place w where
  alone s here t there live alive := inv.alone here there live alive
  own := inv.owns
  inUse_iff := by
    rw [inv.listen_fst accepts]
    cases w.isOwned <;> cases w.isBlocked place <;> simp [World.inUse, World.notSocket, SystemError.kind]
  blocked_iff := by
    rw [inv.listen_fst accepts]
    cases owned : w.isOwned with
    | true => simp [inv.isBlocked_of_isOwned owned, World.inUse, SystemError.kind]
    | false => cases w.isBlocked place <;> simp [World.notSocket, SystemError.kind]
  listens_iff := by
    rw [inv.listen_fst accepts]
    cases w.isOwned <;> cases w.isBlocked place <;> simp
  listens k listened := inv.listens accepts listened
  refused e refused := by
    rcases inv.refused_cases accepts refused with same | ⟨s, _, _, same⟩
    · rw [same]
      exact ⟨rfl, fun _ => rfl⟩
    · rw [same]
      exact ⟨rfl, World.listener_attach w s.number _⟩
  probes e refused := by
    rcases inv.refused_cases accepts refused with same | ⟨s, here, live, same⟩
    · exact .inl same
    · exact .inr (same.trans (inv.probes accepts here live))
  answers s here := inv.answers here
  answers_after e refused s here := by
    rcases inv.refused_cases accepts refused with same | ⟨t, _, _, same⟩
    · rw [same]
      exact inv.answers here
    · rw [same]
      exact inv.answers_attach here t.number .closed
  serves s here idle := inv.serves accepts here idle
  serves_after e refused s here idle := by
    rcases inv.refused_cases accepts refused with same | ⟨t, there, live, same⟩
    · rw [same]
      exact inv.serves accepts here idle
    · obtain rfl := inv.alone here there (World.isLive_of_isIdle idle) live
      rw [same]
      exact inv.serves_attach accepts here idle
  spared e removes blocked := inv.spared accepts removes blocked
  freed e s here live s' there number finished := inv.freed accepts here live there number finished

theorem channel_orderly (accepts : Accepts opening name place) (vacant : Vacant opening place)
    (events : List Event) : Orderly name place (run name place opening events) :=
  ((invariant_vacant vacant).run accepts events).orderly accepts

def bare : World := { files := ⟨[(["tmp"], .directory), (FileTree.scratch, .directory)]⟩ }

/-- Two that listen on one channel, the first of which is stopped then, and a file in the way of a
third. -/
theorem channel_orderly_by_turns :
    Orderly "build" (FileTree.scratch ++ ["build.sock"])
        (run "build" (FileTree.scratch ++ ["build.sock"]) bare
          [.listen, .listen, .stop 0, .act 0, .leave .file, .listen, .remove, .listen]) ∧
      (run "build" (FileTree.scratch ++ ["build.sock"]) bare
          [.listen, .listen, .stop 0, .act 0, .leave .file, .listen, .remove, .listen]).stations.map
        (fun s => (s.number, s.isLive)) = [(0, false), (2, true)] := by
  have nothing : bare.files.node? (FileTree.scratch ++ ["build.sock"]) = none := by decide
  have accepts : Accepts bare "build" (FileTree.scratch ++ ["build.sock"]) :=
    ⟨by decide +kernel, by decide +kernel, by decide, by decide, by decide +kernel⟩
  have vacant : Vacant bare (FileTree.scratch ++ ["build.sock"]) :=
    ⟨rfl, rfl, rfl, fun number owned => by cases nothing.symm.trans owned⟩
  exact ⟨channel_orderly accepts vacant _, by decide +kernel⟩

/-- A second that was refused is all that waits for the first. -/
example : (run "build" (FileTree.scratch ++ ["build.sock"]) bare [.listen, .listen]).stations.map
    (fun s => (s.number, s.backlog)) = [(0, [1])] := by decide +kernel

end Tenancy

end Overseer.Shutdown
