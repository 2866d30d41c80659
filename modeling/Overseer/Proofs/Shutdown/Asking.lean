import Overseer.Proofs.Shutdown.Agreement

/-!
For whom a listener acts. It acts only if it has read a request on some connection; where nobody but
one signaler sends a request, it is that one's, nobody else is answered, and no connection is accepted
any more.
-/
namespace Overseer.Shutdown

/-- A listener begins to act as it has read the last of a request, and goes on to do so. -/
theorem Listener.isAnswering_of_step {l : Listener} {e : Listener.Event}
    (answering : (l.step e).1.phase.isAnswering = true) :
    l.phase.isAnswering = true ∨ ∃ c rest, (l.step e).1.phase = .acknowledging c rest := by
  have move := l.step_move e
  generalize (l.step e).1 = next, (l.step e).2 = effects at move answering
  cases move with
  | stay | stop | look | pend => exact .inl answering
  | request c => exact .inr ⟨c, _, rfl⟩
  | write c n rest phase | answer c n rest phase | giveUp c rest phase =>
    exact .inl (by rw [phase]; rfl)
  | accept | pause | leave | read | next | abandon | resume => cases answering

/-- What holds a request goes on to hold one. -/
theorem RequestReader.feed_eq_none_of_prefix {first whole : List UInt8} (part : first <+: whole)
    (complete : feed {} first = none) : feed {} whole = none := by
  obtain ⟨later, rfl⟩ := part
  rw [feed_append, complete]
  rfl

namespace Meeting

variable {k : Nat} {m m' : Meeting} {s s' : Station}

theorem listeners_map {stations : List Station} {f : Station → Station}
    (same : ∀ s, (f s).listener = s.listener) :
    (stations.map f).map Station.listener = stations.map Station.listener := by
  rw [List.map_map]
  exact List.map_congr_left fun s _ => same s

theorem listeners_connect {w w' : World} {name : String} {client : ClientSide} {c : Nat}
    (made : w.connect name client = .ok (c, w')) :
    w'.stations.map Station.listener = w.stations.map Station.listener := by
  obtain ⟨owner, _, _, rfl⟩ := World.connect_eq made
  exact listeners_map fun s => by split <;> rfl

/-- Only what happens to the listener moves it. -/
theorem Step.listeners (step : Step k m m') :
    m'.world.stations.map Station.listener = m.world.stations.map Station.listener ∨
      ∃ e m₁, Occurs k m e m₁ ∧ m' = { m₁ with world := m₁.world.tell k e } := by
  cases step with
  | listen occurs => exact .inr ⟨_, _, occurs, rfl⟩
  | lull => exact .inl (listeners_map fun s => by split <;> rfl)
  | connect _ _ made =>
    have same := listeners_connect made
    exact .inl same
  | visit made => exact .inl (listeners_connect made)
  | ask _ _ _ sent | send _ sent =>
    exact .inl (congrArg _ (World.sent_of_send sent).stations)
  | _ => exact .inl rfl

/-- What was read is not forgotten. -/
theorem Step.heard (step : Step k m m') (n : Nat) : m.heard n <+: m'.heard n := by
  cases step with
  | listen occurs =>
    cases occurs with
    | @received s c =>
      by_cases here : n = c
      · subst here
        simp
      · simp [here]
    | _ => exact List.prefix_refl _
  | _ => exact List.prefix_refl _

/-- A listener that acts has read a request. -/
def Acting (m : Meeting) (s : Station) : Prop :=
  s.listener.phase.isAnswering = true → ∃ n, RequestReader.feed {} (m.heard n) = none

theorem Acting.step (acting : Acting m s) (inv : Invariant k m s) (step : Step k m m')
    (inv' : Invariant k m' s') : Acting m' s' := by
  intro answering
  have before (still : s.listener.phase.isAnswering = true) :
      ∃ n, RequestReader.feed {} (m'.heard n) = none :=
    (acting still).imp fun n complete =>
      RequestReader.feed_eq_none_of_prefix (step.heard n) complete
  rcases step.listeners with same | ⟨e, m₁, occurs, rfl⟩
  · have same : s'.listener = s.listener := by simpa [inv.alone, inv'.alone] using same
    exact before (same ▸ answering)
  · obtain ⟨t, invt, told⟩ := inv.listen occurs
    obtain rfl : t = s' := by simpa using invt.alone.symm.trans inv'.alone
    rcases Listener.isAnswering_of_step (told ▸ answering) with still | ⟨c, rest, phase⟩
    · exact before still
    · exact ⟨c, (inv'.answers.asked c rest (told ▸ phase)).1⟩

theorem Reachable.acting (reached : Reachable k m) : ∃ s, Invariant k m s ∧ Acting m s := by
  obtain ⟨w, w', name, nobody, quiet, uncalled, bound, steps⟩ := reached
  obtain ⟨s, inv⟩ := invariant_listen nobody quiet uncalled bound
  have idle : Acting { world := w' } s := by
    obtain ⟨rfl, files, place, rfl⟩ := listen_eq nobody bound
    obtain rfl : s = { number := w.next, place } := by simpa [eq_comm] using inv.alone
    intro answering
    cases answering
  clear bound
  induction steps with
  | refl => exact ⟨s, inv, idle⟩
  | tail _ step ih =>
    obtain ⟨t, inv, acting⟩ := ih
    obtain ⟨t', _, inv', _⟩ := inv.step step
    exact ⟨t', inv', acting.step inv step inv'⟩

theorem isSome_tell (w : World) (k : Nat) (e : Listener.Event) (n : Nat) :
    ((w.tell k e).connection? n).isSome = (w.connection? n).isSome := by
  cases here : w.station? k with
  | none => simp [World.tell, here]
  | some s => exact (World.performed_tell k here e).made n

def Carried (m : Meeting) : Prop := ∀ n, m.sent n ≠ [] → (m.world.connection? n).isSome = true

theorem Carried.send {n : Nat} {bytes : List UInt8} {w : World} (carried : Carried m)
    (sent : m.world.send n bytes = (true, w)) :
    Carried { m with world := w, sent := Function.update m.sent n (m.sent n ++ bytes) } := by
  have sent := World.sent_of_send sent
  intro c some
  refine (sent.made c).trans ?_
  by_cases here : c = n
  · exact here ▸ sent.there
  · exact carried c (by simpa [here] using some)

theorem Carried.connect {name : String} {client : ClientSide} {c : Nat} {w : World}
    (carried : Carried m) (made : m.world.connect name client = .ok (c, w)) :
    Carried { m with world := w } := by
  obtain ⟨owner, _, _, rfl⟩ := World.connect_eq made
  intro n some
  rw [World.connection?_attach, Option.isSome_or, carried n some, Bool.true_or]

theorem Carried.step (carried : Carried m) (step : Step k m m') : Carried m' := by
  have same (c : Nat) {f : Connection → Connection} (number : ∀ c, (f c).number = c.number) :
      Carried { m with world := m.world.mapConnection c f } := fun n some =>
    (World.isSome_mapConnection m.world c number n).trans (carried n some)
  cases step with
  | elapse | lull | call | refuse | hear | fail | expire => exact carried
  | connect _ _ made =>
    have connected := carried.connect made
    exact connected
  | visit made => exact carried.connect made
  | ask _ _ _ sent | send _ sent => exact carried.send sent
  | leave | close => exact same _ fun _ => rfl
  | halfClose => exact same _ World.number_halfClose
  | listen occurs =>
    intro n some
    rw [isSome_tell]
    cases occurs with
    | accepted => exact carried n some
    | received count => exact same _ (f := fun c => c.take count) (fun _ => rfl) n some
    | other => exact carried n some

theorem Carried.steps (carried : Carried m) (steps : Steps k m m') : Carried m' := by
  induction steps with
  | refl => exact carried
  | tail _ step ih => exact ih.step step

/-- Nobody but the first signaler sends a request. -/
def Discreet (m : Meeting) : Prop := ∀ n, m.lines 0 ≠ some n → ¬Requests (m.sent n)

/-- Whom the listener answers is the first signaler, whose request it has read. -/
structure Asked (m : Meeting) (n : Nat) : Prop where
  line : m.lines 0 = some n
  sent : m.sent n = requestLine
  heard : m.heard n = requestLine
  only : ∀ c, m.world.received c ≠ [] → c = n

theorem Invariant.eq_requestLine (inv : Invariant k m s) (discreet : Discreet m) {n : Nat}
    (complete : RequestReader.feed {} (m.heard n) = none) :
    m.lines 0 = some n ∧ m.sent n = requestLine ∧ m.heard n = requestLine := by
  have read : m.heard n <+: m.sent n := inv.streams.whole n ▸ List.prefix_append _ _
  have asked : Requests (m.sent n) :=
    (RequestReader.feed_eq_none_iff _).mp (RequestReader.feed_eq_none_of_prefix read complete)
  have line : m.lines 0 = some n := by
    by_contra other
    exact discreet n other asked
  have sent := (inv.callers.lines 0 n line).2
  have heard := eq_requestLine_of_prefix (read.trans sent) complete
  exact ⟨line, sent.eq_of_length_le (heard ▸ read.length_le), heard⟩

theorem Acting.asked (acting : Acting m s) (inv : Invariant k m s) (discreet : Discreet m)
    (answering : s.listener.phase.isAnswering = true) : ∃ n, Asked m n := by
  obtain ⟨n, complete⟩ := acting answering
  obtain ⟨line, sent, heard⟩ := inv.eq_requestLine discreet complete
  refine ⟨n, line, sent, heard, fun c some => ?_⟩
  obtain ⟨line', _⟩ := inv.eq_requestLine discreet (inv.answers.deserved c some).2
  exact Option.some.inj (line'.symm.trans line)

/-- A listener that acts accepts nobody. -/
theorem Invariant.not_accepted (inv : Invariant k m s)
    (answering : s.listener.phase.isAnswering = true) (c : Nat) :
    ¬Occurs k m (.accepted c) m' := by
  intro occurs
  cases occurs with
  | accepted here accepting =>
    rw [World.station?_alone inv.alone inv.number] at here
    cases here
    rw [accepting] at answering
    cases answering
  | other _ connects => exact connects c rfl

end Meeting

end Overseer.Shutdown
