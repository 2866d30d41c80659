import Mathlib.Logic.Function.Basic
import Overseer.Shutdown.World

/-!
What is under way on the connections of a world, and what each part of a listener's or a client's
doing makes of it. Only a listener that writes adds to what came back, and only at the connection it
writes to.
-/
namespace Overseer.Shutdown.World

def unread (w : World) (n : Nat) : List UInt8 :=
  ((w.connection? n).map Connection.unread).getD []

def received (w : World) (n : Nat) : List UInt8 :=
  ((w.connection? n).map Connection.received).getD []

@[simp] theorem number_hangUp (c : Connection) : c.hangUp.number = c.number := by
  unfold Connection.hangUp
  split <;> rfl

@[simp] theorem unread_hangUp (c : Connection) : c.hangUp.unread = c.unread := by
  unfold Connection.hangUp
  split <;> rfl

@[simp] theorem received_hangUp (c : Connection) : c.hangUp.received = c.received := by
  unfold Connection.hangUp
  split <;> rfl

@[simp] theorem number_writeBack (c : Connection) (bytes : List UInt8) :
    (c.writeBack bytes).number = c.number := by
  unfold Connection.writeBack
  split <;> rfl

@[simp] theorem unread_writeBack (c : Connection) (bytes : List UInt8) :
    (c.writeBack bytes).unread = c.unread := by
  unfold Connection.writeBack
  split <;> rfl

theorem prefix_writeBack (c : Connection) (bytes : List UInt8) :
    c.received <+: (c.writeBack bytes).received := by
  unfold Connection.writeBack
  split
  · exact List.prefix_rfl
  · exact List.prefix_append _ _

@[simp] theorem number_halfClose (c : Connection) : c.halfClose.number = c.number := by
  unfold Connection.halfClose
  split <;> rfl

@[simp] theorem unread_halfClose (c : Connection) : c.halfClose.unread = c.unread := by
  unfold Connection.halfClose
  split <;> rfl

@[simp] theorem received_halfClose (c : Connection) : c.halfClose.received = c.received := by
  unfold Connection.halfClose
  split <;> rfl

section

variable (w : World) (n : Nat) {f : Connection → Connection}

theorem connection?_mapConnection (same : ∀ c, (f c).number = c.number) (m : Nat) :
    (w.mapConnection n f).connection? m =
      if m = n then (w.connection? n).map f else w.connection? m := by
  unfold mapConnection connection?
  dsimp only
  induction w.connections with
  | nil => simp
  | cons c connections ih =>
    rw [List.map_cons, List.find?_cons]
    by_cases here : c.number = n
    · by_cases looked : m = n
      · simp [here, looked, same]
      · have other : n ≠ m := fun eq => looked eq.symm
        simpa [here, looked, other, same] using ih
    · by_cases looked : m = n
      · subst looked
        simpa [here] using ih
      · simp only [here, if_false, looked] at ih ⊢
        rw [ih, List.find?_cons]

theorem map_mapConnection {α : Type} {g : Connection → α}
    (same : ∀ c, (f c).number = c.number) (keeps : ∀ c, g (f c) = g c) (m : Nat) :
    ((w.mapConnection n f).connection? m).map g = (w.connection? m).map g := by
  rw [connection?_mapConnection w n same]
  split
  · next eq =>
    have kept : g ∘ f = g := funext keeps
    rw [eq, Option.map_map, kept]
  · rfl

theorem isSome_mapConnection (same : ∀ c, (f c).number = c.number) (m : Nat) :
    ((w.mapConnection n f).connection? m).isSome = (w.connection? m).isSome := by
  have made := map_mapConnection w n (g := fun _ => ()) same (fun _ => rfl) m
  simpa using congrArg Option.isSome made

theorem unread_mapConnection (same : ∀ c, (f c).number = c.number)
    (keeps : ∀ c, (f c).unread = c.unread) : (w.mapConnection n f).unread = w.unread :=
  funext fun m => congrArg (Option.getD · []) (map_mapConnection w n same keeps m)

theorem received_mapConnection (same : ∀ c, (f c).number = c.number)
    (keeps : ∀ c, (f c).received = c.received) : (w.mapConnection n f).received = w.received :=
  funext fun m => congrArg (Option.getD · []) (map_mapConnection w n same keeps m)

theorem unread_update {g : List UInt8 → List UInt8} (same : ∀ c, (f c).number = c.number)
    (acts : ∀ c, (f c).unread = g c.unread) (there : (w.connection? n).isSome = true) :
    (w.mapConnection n f).unread = Function.update w.unread n (g (w.unread n)) := by
  obtain ⟨c, found⟩ := Option.isSome_iff_exists.mp there
  funext m
  unfold unread
  rw [connection?_mapConnection w n same]
  by_cases here : m = n
  · subst here
    rw [if_pos rfl, Function.update_self, found]
    exact acts c
  · rw [if_neg here, Function.update_of_ne here]

end

/-- What comes of some effects of a listener at the connections. -/
structure Performed (effects : List Listener.Effect) (w w' : World) : Prop where
  next : w'.next = w.next
  signalers : w'.signalers = w.signalers
  made : ∀ n, (w'.connection? n).isSome = (w.connection? n).isSome
  unread : w'.unread = w.unread
  received : ∀ n, w.received n <+: w'.received n
  written : ∀ n, w'.received n ≠ [] → w.received n ≠ [] ∨ ∃ bytes, .write n bytes ∈ effects

theorem Performed.refl (effects : List Listener.Effect) (w : World) : Performed effects w w where
  next := rfl
  signalers := rfl
  made _ := rfl
  unread := rfl
  received _ := List.prefix_rfl
  written _ some := .inl some

theorem Performed.trans {first later : List Listener.Effect} {w w' w'' : World}
    (before : Performed first w w') (after : Performed later w' w'') :
    Performed (first ++ later) w w'' where
  next := after.next.trans before.next
  signalers := after.signalers.trans before.signalers
  made n := (after.made n).trans (before.made n)
  unread := after.unread.trans before.unread
  received n := (before.received n).trans (after.received n)
  written n some := by
    rcases after.written n some with earlier | ⟨bytes, wrote⟩
    · rcases before.written n earlier with earliest | ⟨bytes, wrote⟩
      · exact .inl earliest
      · exact .inr ⟨bytes, List.mem_append_left _ wrote⟩
    · exact .inr ⟨bytes, List.mem_append_right _ wrote⟩

theorem Performed.unwritten {effects : List Listener.Effect} {w w' : World}
    (done : Performed effects w w') {n : Nat} (silent : w.received n = [])
    (quiet : ∀ bytes, .write n bytes ∉ effects) : w'.received n = [] := by
  by_contra some
  rcases done.written n some with before | ⟨bytes, wrote⟩
  · exact before silent
  · exact quiet bytes wrote

theorem performed_mapConnection (effects : List Listener.Effect) (w : World) (n : Nat)
    {f : Connection → Connection} (number : ∀ c, (f c).number = c.number)
    (unread : ∀ c, (f c).unread = c.unread) (received : ∀ c, (f c).received = c.received) :
    Performed effects w (w.mapConnection n f) where
  next := rfl
  signalers := rfl
  made := isSome_mapConnection w n number
  unread := unread_mapConnection w n number unread
  received _ := received_mapConnection w n number received ▸ List.prefix_rfl
  written _ some := .inl (received_mapConnection w n number received ▸ some)

theorem performed_hangUp (effects : List Listener.Effect) (w : World) (n : Nat) :
    Performed effects w (w.hangUp n) :=
  performed_mapConnection effects w n number_hangUp unread_hangUp received_hangUp

theorem performed_hangUpAll (w : World) (connections : List Nat) :
    Performed [] w (w.hangUpAll connections) := by
  induction connections generalizing w with
  | nil => exact .refl [] w
  | cons n connections ih => exact (performed_hangUp [] w n).trans (ih _)

theorem received_writeBack_prefix (w : World) (n : Nat) (bytes : List UInt8) (m : Nat) :
    w.received m <+: (w.writeBack n bytes).received m := by
  unfold received writeBack
  rw [connection?_mapConnection w n fun c => number_writeBack c bytes]
  split
  · next eq =>
    subst eq
    cases w.connection? m with
    | none => exact List.prefix_rfl
    | some c => exact prefix_writeBack c bytes
  · exact List.prefix_rfl

theorem received_writeBack_of_ne (w : World) {n m : Nat} (other : m ≠ n) (bytes : List UInt8) :
    (w.writeBack n bytes).received m = w.received m := by
  unfold received writeBack
  rw [connection?_mapConnection w n fun c => number_writeBack c bytes, if_neg other]

theorem performed_writeBack (w : World) (n : Nat) (bytes : List UInt8) :
    Performed [.write n bytes] w (w.writeBack n bytes) where
  next := rfl
  signalers := rfl
  made := isSome_mapConnection w n fun c => number_writeBack c bytes
  unread := unread_mapConnection w n (fun c => number_writeBack c bytes)
    fun c => unread_writeBack c bytes
  received := received_writeBack_prefix w n bytes
  written m some := by
    by_cases here : m = n
    · exact .inr ⟨bytes, by simp [here]⟩
    · exact .inl (received_writeBack_of_ne w here bytes ▸ some)

theorem performed_perform (k : Nat) (w : World) (effect : Listener.Effect) :
    Performed [effect] w (w.perform k effect) := by
  cases effect with
  | acknowledge c => exact .refl _ w
  | close c => exact performed_hangUp _ w c
  | callBack => exact { Performed.refl _ w with }
  | write c bytes => exact performed_writeBack w c bytes
  | release =>
    simp only [perform]
    split
    · exact .refl _ w
    · next s _ =>
      have hung := performed_hangUpAll { w with files := w.files.unlink s.place } s.backlog
      exact { hung with written := fun n some => .inl ((hung.written n some).resolve_right (by simp)) }

theorem performed_performAll (k : Nat) (w : World) (effects : List Listener.Effect) :
    Performed effects w (w.performAll k effects) := by
  induction effects generalizing w with
  | nil => exact .refl [] w
  | cons effect effects ih => exact (performed_perform k w effect).trans (ih _)

theorem performed_tell (k : Nat) {w : World} {s : Station} (here : w.station? k = some s)
    (e : Listener.Event) : Performed (s.listener.step e).2 w (w.tell k e) := by
  unfold tell
  rw [here]
  have done := performed_performAll k
    (w.mapStation k fun t => { t with listener := (s.listener.step e).1 }) (s.listener.step e).2
  exact { done with }

theorem stations_hangUpAll (w : World) (connections : List Nat) :
    (w.hangUpAll connections).stations = w.stations := by
  induction connections generalizing w with
  | nil => rfl
  | cons n connections ih => exact ih (w.hangUp n)

section

variable {w : World} {s : Station} (alone : w.stations = [s]) {k : Nat} (number : s.number = k)

include alone number

theorem mapStation_alone (f : Station → Station) : (w.mapStation k f).stations = [f s] := by
  simp [mapStation, alone, number]

theorem station?_alone : w.station? k = some s := by
  simp [station?, alone, number]

theorem perform_alone (effect : Listener.Effect) :
    ∃ backlog, backlog.Sublist s.backlog ∧ (w.perform k effect).stations =
      [{ s with backlog, calls := s.calls + [effect].count .callBack }] := by
  cases effect with
  | callBack => exact ⟨s.backlog, List.Sublist.refl _, mapStation_alone alone number _⟩
  | acknowledge | close | write => exact ⟨s.backlog, List.Sublist.refl _, alone⟩
  | release =>
    have hung : (hangUpAll { w with files := w.files.unlink s.place } s.backlog).stations = [s] :=
      (stations_hangUpAll _ _).trans alone
    simp only [perform, station?_alone alone number]
    exact ⟨[], List.nil_sublist _, mapStation_alone hung number fun s => { s with backlog := [] }⟩

end

theorem performAll_alone {w : World} {s : Station} (alone : w.stations = [s]) {k : Nat}
    (number : s.number = k) (effects : List Listener.Effect) :
    ∃ backlog, backlog.Sublist s.backlog ∧ (w.performAll k effects).stations =
      [{ s with backlog, calls := s.calls + effects.count .callBack }] := by
  induction effects generalizing w s with
  | nil => exact ⟨s.backlog, List.Sublist.refl _, alone⟩
  | cons effect effects ih =>
    obtain ⟨backlog, fewer, alone'⟩ := perform_alone alone number effect
    obtain ⟨backlog', fewer', alone''⟩ := ih alone' number
    have counted : (effect :: effects).count .callBack =
        [effect].count .callBack + effects.count .callBack := by
      rw [← List.count_append, List.singleton_append]
    refine ⟨backlog', fewer'.trans fewer, alone''.trans ?_⟩
    rw [counted, ← Nat.add_assoc]

theorem tell_alone {w : World} {s : Station} (alone : w.stations = [s]) {k : Nat}
    (number : s.number = k) (e : Listener.Event) :
    ∃ backlog, backlog.Sublist s.backlog ∧ (w.tell k e).stations =
      [{ s with
          listener := (s.listener.step e).1
          backlog
          calls := s.calls + (s.listener.step e).2.count .callBack }] := by
  unfold tell
  rw [station?_alone alone number]
  have told := mapStation_alone alone number
    fun t => { t with listener := (s.listener.step e).1 }
  exact performAll_alone told number _

theorem connection?_attach (w : World) (owner : Nat) (c : Connection) (n : Nat) :
    (w.attach owner c).connection? n =
      (w.connection? n).or (if c.number = n then some c else none) := by
  simp [connection?, attach, List.find?_append]

theorem attach_alone {w : World} {s : Station} (alone : w.stations = [s]) {owner : Nat}
    (number : s.number = owner) (c : Connection) :
    (w.attach owner c).stations = [{ s with backlog := s.backlog ++ [c.number], ready := true }] := by
  simp [attach, alone, number]

/-- On a connection that comes about nothing is under way. -/
theorem unread_attach (w : World) (owner : Nat) (c : Connection) (idle : c.unread = []) :
    (w.attach owner c).unread = w.unread := by
  funext n
  unfold unread
  rw [connection?_attach]
  cases w.connection? n with
  | some d => rfl
  | none =>
    rw [Option.none_or]
    split
    · exact idle
    · rfl

theorem received_attach (w : World) (owner : Nat) (c : Connection) (idle : c.received = []) :
    (w.attach owner c).received = w.received := by
  funext n
  unfold received
  rw [connection?_attach]
  cases w.connection? n with
  | some d => rfl
  | none =>
    rw [Option.none_or]
    split
    · exact idle
    · rfl

/-- A connection comes about with a live listener only. -/
theorem connect_eq {w w' : World} {name : String} {client : ClientSide} {c : Nat}
    (made : w.connect name client = .ok (c, w')) :
    ∃ owner, w.isLive (some owner) = true ∧ c = w.next ∧
      w' = w.attach owner { number := w.next, client } := by
  unfold connect at made
  split at made
  · cases made
  · split at made
    · cases made
    · split at made
      · cases made
      · split at made
        · next owner _ =>
          split at made
          · next live =>
            cases made
            exact ⟨owner, live, rfl, rfl⟩
          · cases made
        · cases made

theorem number_of_isLive {w : World} {s : Station} (alone : w.stations = [s]) {owner : Nat}
    (live : w.isLive (some owner) = true) : s.number = owner := by
  by_cases same : s.number = owner
  · exact same
  · simp [isLive, station?, alone, same] at live

structure Sent (n : Nat) (bytes : List UInt8) (w w' : World) : Prop where
  there : (w.connection? n).isSome = true
  stations : w'.stations = w.stations
  next : w'.next = w.next
  signalers : w'.signalers = w.signalers
  made : ∀ m, (w'.connection? m).isSome = (w.connection? m).isSome
  received : w'.received = w.received
  unread : w'.unread = Function.update w.unread n (w.unread n ++ bytes)

theorem sent_of_send {w w' : World} {n : Nat} {bytes : List UInt8}
    (sent : w.send n bytes = (true, w')) : Sent n bytes w w' := by
  unfold send at sent
  split at sent
  · cases sent
  · next c found =>
    have there : (w.connection? n).isSome = true := by rw [found]; rfl
    split at sent
    · next empty =>
      cases sent
      obtain rfl : bytes = [] := by simpa using empty
      exact ⟨there, rfl, rfl, rfl, fun _ => rfl, rfl, by simp⟩
    · split at sent
      · cases sent
        exact {
          there
          stations := rfl
          next := rfl
          signalers := rfl
          made := isSome_mapConnection w n fun _ => rfl
          received := received_mapConnection w n (fun _ => rfl) fun _ => rfl
          unread := unread_update w n (g := (· ++ bytes)) (fun _ => rfl) (fun _ => rfl) there }
      · cases sent

/-- A connection that waits is taken up, bytes that wait are read, nobody is found to wait, or the
listener is told of something for which nothing is taken out of the world. -/
inductive StationStep (w : World) (s : Station) : World → Prop where
  | accept {c : Nat} {rest : List Nat} (phase : s.listener.phase = .accepting)
      (free : s.listener.stopping = false) (waiting : s.backlog = c :: rest) :
      StationStep w s
        ((w.mapStation s.number fun s => { s with backlog := rest }).tell s.number (.accepted c))
  | read {c : Nat} {reader : RequestReader} {connection : Connection}
      (phase : s.listener.phase = .serving c reader) (free : s.listener.stopping = false)
      (made : w.connection? c = some connection) :
      StationStep w s
        ((w.mapConnection c fun c => c.take connection.unread.length).tell s.number
          (.received connection.unread))
  | lull : StationStep w s (w.mapStation s.number fun s => { s with ready := false })
  | tell (e : Listener.Event) (connects : ∀ c, e ≠ .accepted c)
      (reads : ∀ bytes, e ≠ .received bytes) : StationStep w s (w.tell s.number e)

theorem writing_cases (w : World) (c : Nat) (rest : List UInt8) :
    w.writing c rest = .writeFailed ∨ ∃ n, w.writing c rest = .wrote n := by
  unfold writing
  split
  · exact .inl rfl
  · split
    · exact .inl rfl
    · exact .inr ⟨_, rfl⟩

theorem stationStep_of_eq_some {w w' : World} {s : Station} (step : w.stationStep? s = some w') :
    StationStep w s w' := by
  unfold stationStep? at step
  cases phase : s.listener.phase with
  | finished o =>
    rw [phase] at step
    cases step
  | pausing due =>
    simp only [phase, Option.ite_none_right_eq_some, Option.some.injEq] at step
    exact step.2 ▸ .tell .resumed nofun nofun
  | acknowledging c rest =>
    simp only [phase, Option.some.injEq] at step
    rcases w.writing_cases c rest with failed | ⟨n, wrote⟩
    · exact step ▸ failed ▸ .tell .writeFailed nofun nofun
    · exact step ▸ wrote ▸ .tell (.wrote n) nofun nofun
  | accepting =>
    simp only [phase] at step
    split at step
    · cases step
      exact .tell .woken nofun nofun
    next free =>
      split at step
      · cases step
      split at step
      · cases step
        exact .tell _ nofun nofun
      split at step
      · cases step
        exact .lull
      next c rest waiting =>
        cases step
        exact .accept phase (by simpa using free) waiting
  | serving c reader =>
    simp only [phase] at step
    split at step
    · cases step
      exact .tell .woken nofun nofun
    next free =>
      split at step
      · cases step
      next connection made =>
        split at step
        · cases step
          exact .read phase (by simpa using free) made
        split at step
        · cases step
          exact .tell .ended nofun nofun
        · cases step

end Overseer.Shutdown.World
