import Mathlib.Data.Option.Basic
import Overseer.Proofs.Shutdown.Acknowledging

/-!
A world that settles and lets time pass does so by steps of a meeting, one or two for each of its
own: a signaler that connects writes its whole request at once, and one that has its answer leaves.
-/
namespace Overseer.Shutdown.Meeting

variable {k : Nat} {m : Meeting} {s : Station}

/-- By steps of the meeting it can come to this world. -/
def Leads (k : Nat) (m : Meeting) (w : World) : Prop :=
  ∃ m', Steps k m m' ∧ m'.world = w

theorem Step.leads {m' : Meeting} (step : Step k m m') : Leads k m m'.world :=
  ⟨m', .single step, rfl⟩

theorem firstSome_eq_some {α β : Type} {f : Nat → α → Option β} {index : Nat} {list : List α} {b : β}
    (found : World.firstSome f index list = some b) :
    ∃ j a, list[j]? = some a ∧ f (index + j) a = some b := by
  induction list generalizing index with
  | nil => cases found
  | cons a list ih =>
    rw [World.firstSome] at found
    cases here : f index a with
    | some b' =>
      rw [here] at found
      cases found
      exact ⟨0, a, rfl, here⟩
    | none =>
      rw [here] at found
      obtain ⟨j, a', there, eq⟩ := ih found
      refine ⟨j + 1, a', there, ?_⟩
      rw [← eq, Nat.add_right_comm, Nat.add_assoc]

theorem stationStep?_leads {w' : World} (inv : Invariant k m s)
    (stepped : m.world.stationStep? s = some w') : Leads k m w' := by
  have here := World.station?_alone inv.alone inv.number
  have number := inv.number
  subst number
  cases World.stationStep_of_eq_some stepped with
  | accept phase free waiting =>
    exact (Step.listen (.accepted here phase (Listener.leaves_of_free free) waiting)).leads
  | @read c reader connection phase free made =>
    have stays := Listener.leaves_of_free free
    have occurs := Occurs.received connection.unread.length here phase stays made
    rw [List.take_length] at occurs
    exact (Step.listen occurs).leads
  | lull => exact Step.lull.leads
  | tell e connects reads => exact (Step.listen (.other e connects reads)).leads

/-- On a connection that just came about all of the request can be written. -/
theorem send_fresh (inv : Invariant k m s) (i : Nat) (a : SignalerAt) :
    let w := (m.world.attach k { number := m.world.next }).setSignaler i a
    w.send m.world.next requestLine = (true, (w.send m.world.next requestLine).2) := by
  have unmade : m.world.connection? m.world.next = none := by
    by_contra made
    exact Nat.lt_irrefl _ (inv.streams.made _ (Option.isSome_iff_ne_none.mpr made))
  have made : ((m.world.attach k { number := m.world.next }).setSignaler i a).connection?
      m.world.next = some { number := m.world.next } := by
    have attached := World.connection?_attach m.world k { number := m.world.next } m.world.next
    rw [unmade, Option.none_or, if_pos rfl] at attached
    exact attached
  have some : requestLine.isEmpty = false := by decide
  simp [World.send, made, some, Connection.isWritable]

theorem getElem?_setSignaler {w : World} {i : Nat} {a : SignalerAt}
    (here : w.signalers[i]? = some a) (b : SignalerAt) :
    (w.setSignaler i b).signalers[i]? = some b := by
  obtain ⟨inside, -⟩ := List.getElem?_eq_some_iff.mp here
  simp [World.setSignaler, inside]

theorem attemptNow_leads {i : Nat} {a : SignalerAt} (inv : Invariant k m s)
    (here : m.world.signalers[i]? = some a) (attempts : a.signaler.attempts m.world.now = true) :
    Leads k m (m.world.attemptNow i a) := by
  obtain ⟨due, phase⟩ : ∃ due, a.signaler.phase = .connecting due := by
    unfold Signaler.attempts at attempts
    split at attempts
    · next due phase => exact ⟨due, phase⟩
    · cases attempts
  unfold World.attemptNow
  split
  · next e _ => exact (Step.refuse e here phase).leads
  · next c w made =>
    have connected : Step k m _ := .connect here phase made
    obtain ⟨rfl, rfl⟩ := inv.attached made
    have unsent := inv.streams.unsent _ (Nat.le_refl m.world.next)
    have asked : Step k { m with
        world := (m.world.attach k { number := m.world.next }).setSignaler i
          { a with signaler := a.signaler.attempt m.world.now (.connected m.world.next) }
        lines := Function.update m.lines i (some m.world.next) } _ :=
      .ask (getElem?_setSignaler (w := m.world.attach k _) here _) rfl
        (by rw [unsent]; exact List.prefix_rfl) (send_fresh inv i _)
    exact ⟨_, .tail (.single connected) asked, rfl⟩

/-- A signaler that has its answer leaves at once. -/
theorem conclude_leads {i : Nat} {a : SignalerAt} {t : Signaler} (inv : Invariant k m s)
    (here : m.world.signalers[i]? = some a) (answered : t.answer?.isSome = true)
    (step : Step k m { m with world := m.world.setSignaler i { a with signaler := t } }) :
    Leads k m (m.world.conclude i a t) := by
  unfold World.conclude
  dsimp only
  split
  · next c deadline phase =>
    have line := inv.callers.exchanging i a c deadline here phase
    have left : Step k { m with world := m.world.setSignaler i { a with signaler := t } } _ :=
      .leave line (by simpa [getElem?_setSignaler here] using answered)
    exact ⟨_, .tail (.single step) left, rfl⟩
  · exact step.leads

theorem signalerStep?_leads {i : Nat} {a : SignalerAt} {w' : World} (inv : Invariant k m s)
    (here : m.world.signalers[i]? = some a) (stepped : m.world.signalerStep? i a = some w') :
    Leads k m w' := by
  unfold World.signalerStep? at stepped
  split at stepped
  · next attempts =>
    cases stepped
    exact attemptNow_leads inv here attempts
  · split at stepped
    · next c deadline phase =>
      split at stepped
      · cases stepped
      · next connection made =>
        dsimp only at stepped
        split at stepped
        · next answered =>
          cases stepped
          exact conclude_leads inv here answered
            (.hear here phase made List.prefix_rfl (.inr ⟨rfl, rfl⟩))
        · cases stepped
    · cases stepped

theorem expireStep?_leads {i : Nat} {a : SignalerAt} {w' : World} (inv : Invariant k m s)
    (here : m.world.signalers[i]? = some a) (stepped : m.world.expireStep? i a = some w') :
    Leads k m w' := by
  unfold World.expireStep? at stepped
  dsimp only at stepped
  split at stepped
  · next expired =>
    cases stepped
    rw [Bool.and_eq_true] at expired
    exact conclude_leads inv here expired.2 (.expire here)
  · cases stepped

theorem step?_leads {w' : World} (inv : Invariant k m s) (stepped : m.world.step? = some w') :
    Leads k m w' := by
  unfold World.step? at stepped
  rw [Option.orElse_eq_some, Option.orElse_eq_some] at stepped
  rcases stepped with listener | ⟨-, signaler | ⟨-, expiry⟩⟩
  · obtain ⟨j, t, here, stepped⟩ := firstSome_eq_some listener
    rw [inv.alone, List.getElem?_singleton] at here
    split at here
    · cases here
      exact stationStep?_leads inv stepped
    · cases here
  · obtain ⟨j, a, here, stepped⟩ := firstSome_eq_some signaler
    rw [Nat.zero_add] at stepped
    exact signalerStep?_leads inv here stepped
  · obtain ⟨j, a, here, stepped⟩ := firstSome_eq_some expiry
    rw [Nat.zero_add] at stepped
    exact expireStep?_leads inv here stepped

theorem Leads.andThen {w : World} {f : World → World} (first : Leads k m w)
    (inv : Invariant k m s)
    (later : ∀ m' s', Invariant k m' s' → Leads k m' (f m'.world)) : Leads k m (f w) := by
  obtain ⟨m', steps, rfl⟩ := first
  obtain ⟨s', _, inv', _⟩ := inv.steps steps
  obtain ⟨m'', steps', eq⟩ := later m' s' inv'
  exact ⟨m'', steps.trans steps', eq⟩

theorem stepMany_leads (inv : Invariant k m s) (fuel : Nat) :
    Leads k m (World.stepMany fuel m.world) := by
  induction fuel generalizing m s with
  | zero => exact ⟨m, .refl, rfl⟩
  | succ fuel ih =>
    unfold World.stepMany
    split
    · exact ⟨m, .refl, rfl⟩
    · next w stepped => exact (step?_leads inv stepped).andThen inv fun _ _ inv' => ih inv'

theorem settle_leads (inv : Invariant k m s) : Leads k m m.world.settle :=
  stepMany_leads inv m.world.settleBound

theorem elapse_leads (now : Nat) : Leads k m { m.world with now } :=
  (Step.elapse now m.world.files m.world.temporary m.world.starved).leads

theorem advanceTo_leads (inv : Invariant k m s) (target : Nat) (stop : World → Bool) (fuel : Nat) :
    Leads k m (World.advanceTo target stop fuel m.world) := by
  induction fuel generalizing m s with
  | zero => exact ⟨m, .refl, rfl⟩
  | succ fuel ih =>
    obtain ⟨m', settled, eq⟩ := settle_leads inv
    obtain ⟨s', _, inv', _⟩ := inv.steps settled
    have rest : Leads k m' (World.advanceTo target stop (fuel + 1) m.world) := by
      unfold World.advanceTo
      dsimp only
      rw [← eq]
      split
      · exact ⟨m', .refl, rfl⟩
      · split
        · next due _ =>
          split
          · exact (elapse_leads _).andThen (f := World.advanceTo target stop fuel) inv' fun _ _ => ih
          · exact elapse_leads target
        · exact elapse_leads target
    obtain ⟨m'', steps, eq'⟩ := rest
    exact ⟨m'', settled.trans steps, eq'⟩

/-- Letting time pass is a part of some meeting. -/
theorem advance_leads (inv : Invariant k m s) (ms : Nat) : Leads k m (m.world.advance ms) := by
  have advanced := advanceTo_leads inv (m.world.now + ms) (fun _ => false) (ms + 2)
  exact advanced.andThen (f := World.settle) inv fun _ _ => settle_leads

end Overseer.Shutdown.Meeting
