import Overseer.Proofs.Files.Changes
import Overseer.Proofs.Shutdown.Moves
import Overseer.Proofs.Shutdown.Streams

/-!
What a listener does in a world of several: it acts on its own station, and on the files only as it
finishes, when it gives up its place.
-/
namespace Overseer.Shutdown

open Listener (Effect Event)

def Station.become (l : Listener) (s : Station) : Station := { s with listener := l }

def Station.after (effects : List Effect) (s : Station) : Station :=
  { s with
    backlog := if .release ∈ effects then [] else s.backlog
    calls := s.calls + effects.count .callBack }

theorem Station.after_cons (e : Effect) (effects : List Effect) (s : Station) :
    (s.after [e]).after effects = s.after (e :: effects) := by
  have counted : (e :: effects).count .callBack = [e].count .callBack + effects.count .callBack := by
    rw [← List.count_append, List.singleton_append]
  simp only [after, counted, Nat.add_assoc, List.mem_cons]
  by_cases first : Effect.release = e <;> by_cases later : Effect.release ∈ effects <;>
    simp [first, later]

/-- What a listener finds of a connection, and who made it. -/
def Connection.face (c : Connection) : Nat × ClientSide × List UInt8 :=
  (c.number, c.client, c.unread)

namespace World

section

variable (w : World) (k : Nat)

theorem station?_mapStation {f : Station → Station} (same : ∀ s, (f s).number = s.number)
    (m : Nat) : (w.mapStation k f).station? m =
      if m = k then (w.station? k).map f else w.station? m := by
  unfold mapStation station?
  dsimp only
  induction w.stations with
  | nil => simp
  | cons s stations ih =>
    rw [List.map_cons, List.find?_cons]
    by_cases here : s.number = k
    · by_cases looked : m = k
      · simp [here, looked, same]
      · have other : k ≠ m := fun eq => looked eq.symm
        simpa [here, looked, other, same] using ih
    · by_cases looked : m = k
      · subst looked
        simpa [here] using ih
      · simp only [here, if_false, looked] at ih ⊢
        rw [ih, List.find?_cons]

/-- Nobody has this number. -/
theorem mapStation_of_station?_eq_none (none : w.station? k = none) (f : Station → Station) :
    (w.mapStation k f).stations = w.stations := by
  refine (List.map_congr_left fun s member => if_neg ?_).trans (List.map_id' _)
  simpa using List.find?_eq_none.mp none s member

theorem mapStation_mapStation {f g : Station → Station} (same : ∀ s, (f s).number = s.number) :
    ((w.mapStation k f).mapStation k g).stations = (w.mapStation k (g ∘ f)).stations := by
  rw [mapStation, mapStation, List.map_map]
  refine List.map_congr_left fun s _ => ?_
  by_cases mine : s.number = k <;> simp [mine, same]

theorem perform_stations (e : Effect) :
    (w.perform k e).stations = (w.mapStation k (Station.after [e])).stations := by
  have idle {e : Effect} (silent : ∀ s : Station, s.after [e] = s) :
      w.stations = (w.mapStation k (Station.after [e])).stations := by
    simp [mapStation, silent]
  cases e with
  | acknowledge | close | write => exact idle fun s => by simp [Station.after]
  | callBack => simp [perform, mapStation, Station.after]
  | release =>
    simp only [perform]
    split
    next none => rw [mapStation_of_station?_eq_none w k none]
    next s _ =>
      rw [mapStation, stations_hangUpAll]
      simp [mapStation, Station.after]

theorem performAll_stations (effects : List Effect) :
    (w.performAll k effects).stations = (w.mapStation k (Station.after effects)).stations := by
  induction effects generalizing w with
  | nil => simp [performAll, mapStation, Station.after]
  | cons e effects ih =>
    have both : Station.after effects ∘ Station.after [e] = Station.after (e :: effects) :=
      funext fun s => s.after_cons e effects
    calc (w.performAll k (e :: effects)).stations
      _ = ((w.perform k e).mapStation k (Station.after effects)).stations := ih _
      _ = ((w.mapStation k (Station.after [e])).mapStation k (Station.after effects)).stations := by
        simp only [mapStation, perform_stations]
      _ = (w.mapStation k (Station.after (e :: effects))).stations := by
        rw [← both]
        exact mapStation_mapStation w k fun _ => rfl

/-- What is left alone by all that listeners do. -/
structure Abides (w w' : World) : Prop where
  now : w'.now = w.now
  temporary : w'.temporary = w.temporary
  starved : w'.starved = w.starved
  next : w'.next = w.next
  faces : w'.connections.map Connection.face = w.connections.map Connection.face

theorem Abides.trans {w w' w'' : World} (first : Abides w w') (later : Abides w' w'') :
    Abides w w'' :=
  ⟨later.now.trans first.now, later.temporary.trans first.temporary,
    later.starved.trans first.starved, later.next.trans first.next, later.faces.trans first.faces⟩

theorem abides_mapConnection (n : Nat) {f : Connection → Connection}
    (same : ∀ c, (f c).face = c.face) : Abides w (w.mapConnection n f) := by
  refine ⟨rfl, rfl, rfl, rfl, ?_⟩
  rw [mapConnection, List.map_map]
  refine List.map_congr_left fun c _ => ?_
  by_cases here : c.number = n <;> simp [here, same]

theorem numbers_mapConnection (n : Nat) {f : Connection → Connection}
    (same : ∀ c, (f c).number = c.number) :
    (w.mapConnection n f).connections.map Connection.number =
      w.connections.map Connection.number := by
  rw [mapConnection, List.map_map]
  refine List.map_congr_left fun c _ => ?_
  by_cases here : c.number = n <;> simp [here, same]

theorem Abides.numbers {w w' : World} (abides : Abides w w') :
    w'.connections.map Connection.number = w.connections.map Connection.number := by
  have faces := congrArg (List.map Prod.fst) abides.faces
  rw [List.map_map, List.map_map] at faces
  exact faces

theorem abides_hangUp (n : Nat) : Abides w (w.hangUp n) := by
  refine abides_mapConnection w n fun c => ?_
  unfold Connection.hangUp
  split <;> rfl

theorem abides_hangUpAll (connections : List Nat) :
    Abides w (w.hangUpAll connections) ∧ (w.hangUpAll connections).files = w.files := by
  induction connections generalizing w with
  | nil => exact ⟨⟨rfl, rfl, rfl, rfl, rfl⟩, rfl⟩
  | cons n connections ih =>
    obtain ⟨later, files⟩ := ih (w.hangUp n)
    exact ⟨(abides_hangUp w n).trans later, files⟩

theorem abides_perform (e : Effect) : Abides w (w.perform k e) := by
  cases e with
  | acknowledge | callBack => exact ⟨rfl, rfl, rfl, rfl, rfl⟩
  | close c => exact abides_hangUp w c
  | write c bytes =>
    refine abides_mapConnection w c fun c => ?_
    unfold Connection.writeBack
    split <;> rfl
  | release =>
    simp only [perform]
    split
    next => exact ⟨rfl, rfl, rfl, rfl, rfl⟩
    next s _ =>
      have hung := (abides_hangUpAll { w with files := w.files.unlink s.place } s.backlog).1
      exact ⟨hung.now, hung.temporary, hung.starved, hung.next, hung.faces⟩

theorem abides_performAll (effects : List Effect) : Abides w (w.performAll k effects) := by
  induction effects generalizing w with
  | nil => exact ⟨rfl, rfl, rfl, rfl, rfl⟩
  | cons e effects ih => exact (abides_perform w k e).trans (ih _)

/-- Only who finishes touches the files. -/
theorem performAll_files {s : Station} (here : w.station? k = some s) (effects : List Effect) :
    (w.performAll k effects).files =
      if .release ∈ effects then w.files.unlink s.place else w.files := by
  induction effects generalizing w s with
  | nil => rfl
  | cons e effects ih =>
    have still : (w.perform k e).station? k = some (s.after [e]) := by
      rw [station?, perform_stations]
      have mapped := station?_mapStation w k (f := Station.after [e]) (fun _ => rfl) k
      rwa [if_pos rfl, here] at mapped
    have first : (w.perform k e).files =
        if .release = e then w.files.unlink s.place else w.files := by
      cases e with
      | acknowledge | callBack | close | write => rfl
      | release =>
        simp only [perform, here, if_true, mapStation, (abides_hangUpAll _ _).2]
    have place : (s.after [e]).place = s.place := rfl
    rw [performAll, ih _ still, first, place]
    by_cases releases : Effect.release = e <;> by_cases later : Effect.release ∈ effects <;>
      simp [releases, later, FileTree.unlink_unlink]

end

section

variable {w : World} {k : Nat} {s : Station}

theorem tell_eq (here : w.station? k = some s) (e : Event) : w.tell k e =
    (w.mapStation k (Station.become (s.listener.step e).1)).performAll k (s.listener.step e).2 := by
  rw [tell, here]
  rfl

theorem tell_stations (here : w.station? k = some s) (e : Event) : (w.tell k e).stations =
    (w.mapStation k
      (Station.after (s.listener.step e).2 ∘ Station.become (s.listener.step e).1)).stations := by
  rw [tell_eq here, performAll_stations]
  exact mapStation_mapStation w k fun _ => rfl

theorem tell_files (here : w.station? k = some s) (e : Event) : (w.tell k e).files =
    if .release ∈ (s.listener.step e).2 then w.files.unlink s.place else w.files := by
  have still : (w.mapStation k (Station.become (s.listener.step e).1)).station? k =
      some (s.become (s.listener.step e).1) := by
    have mapped := station?_mapStation w k (f := Station.become (s.listener.step e).1)
      (fun _ => rfl) k
    rwa [if_pos rfl, here] at mapped
  rw [tell_eq here]
  exact performAll_files _ k still _

theorem abides_tell (w : World) (k : Nat) (e : Event) : Abides w (w.tell k e) := by
  cases here : w.station? k with
  | none => rw [tell, here]; exact ⟨rfl, rfl, rfl, rfl, rfl⟩
  | some s =>
    rw [tell_eq here]
    have done := abides_performAll (w.mapStation k (Station.become (s.listener.step e).1)) k
      (s.listener.step e).2
    exact ⟨done.now, done.temporary, done.starved, done.next, done.faces⟩

theorem tell_of_station?_eq_none (nobody : w.station? k = none) (e : Event) : w.tell k e = w := by
  rw [tell, nobody]

end

/-- What is done before a listener is told of anything: a connection is taken from those that wait,
or bytes are. -/
inductive Prepared (w : World) (k : Nat) : World → Prop where
  | nothing : Prepared w k w
  | station (f : Station → Station)
      (same : ∀ s, (f s).number = s.number ∧ (f s).place = s.place ∧ (f s).listener = s.listener) :
      Prepared w k (w.mapStation k f)
  | connection (n : Nat) (f : Connection → Connection) (same : ∀ c, (f c).number = c.number) :
      Prepared w k (w.mapConnection n f)

theorem prepared_of_stationStep? {w w' : World} {s : Station} (step : w.stationStep? s = some w') :
    ∃ w₁, w.Prepared s.number w₁ ∧ (w' = w₁ ∨ ∃ e, w' = w₁.tell s.number e) := by
  cases stationStep_of_eq_some step with
  | @accept c rest =>
    exact ⟨_, .station (fun s => { s with backlog := rest }) fun _ => ⟨rfl, rfl, rfl⟩,
      .inr ⟨_, rfl⟩⟩
  | @read c _ connection =>
    exact ⟨_, .connection c (fun c => c.take connection.unread.length) fun _ => rfl,
      .inr ⟨_, rfl⟩⟩
  | lull =>
    exact ⟨_, .station (fun s => { s with ready := false }) fun _ => ⟨rfl, rfl, rfl⟩, .inl rfl⟩
  | tell e => exact ⟨w, .nothing, .inr ⟨e, rfl⟩⟩

end World

namespace Listener

/-- What a listener holds is given up as it finishes. -/
theorem release_mem_iff (l : Listener) (e : Event) :
    .release ∈ (l.step e).2 ↔ l.outcome? = none ∧ (l.step e).1.outcome? ≠ none := by
  have move := l.step_move e
  revert move
  generalize l.step e = next
  obtain ⟨l', effects⟩ := next
  intro move
  cases move <;> simp_all [outcome?]

/-- Who has finished does nothing more. -/
theorem outcome?_step {l : Listener} {o : ListenOutcome} (finished : l.outcome? = some o) (e : Event) :
    (l.step e).1.outcome? = some o := by
  rw [outcome?_eq_some_iff] at finished
  obtain ⟨phase, stopping⟩ := l
  obtain rfl : phase = .finished o := finished
  cases e <;> rfl

end Listener

end Overseer.Shutdown
