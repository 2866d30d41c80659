import Overseer.Proofs.Queue.Histories

/-!
What an operation queue promises to those who enqueue. Besides what every run keeps, a run can be
told again with another end of one operation and with other moments at which its ticket is dropped.
All others go the same way then.
-/
namespace Overseer.Queue.Service

variable {ι β : Type}

inductive Alike : Option (Stage β) → Option (Stage β) → Prop where
  | same (stage : Option (Stage β)) : Alike stage stage
  | ended (outcome other : Except QueueError β) :
      Alike (some (.ended outcome)) (some (.ended other))
  | told (outcome other : Except QueueError β) :
      Alike (some (.told outcome)) (some (.told other))

def isOver : Stage β → Bool
  | .ended _ | .told _ => true
  | _ => false

theorem Alike.eq_of_open {stage other : Option (Stage β)} (alike : Alike stage other)
    (unfinished : stage.any isOver = false) : other = stage := by
  cases alike with
  | same => rfl
  | ended | told => contradiction

theorem Alike.of_ended {outcome : Except QueueError β} {other : Option (Stage β)}
    (alike : Alike (some (.ended outcome)) other) : ∃ outcome', other = some (.ended outcome') := by
  cases alike with
  | same => exact ⟨outcome, rfl⟩
  | ended _ outcome' => exact ⟨outcome', rfl⟩

theorem Alike.of_told {outcome : Except QueueError β} {other : Option (Stage β)}
    (alike : Alike (some (.told outcome)) other) : ∃ outcome', other = some (.told outcome') := by
  cases alike with
  | same => exact ⟨outcome, rfl⟩
  | told _ outcome' => exact ⟨outcome', rfl⟩

/-- The services differ in the outcome of one operation and in what became of its ticket. -/
structure Apart (n : ι) (s s' : Service ι β) : Prop where
  parties : s'.toParties = s.toParties
  disposed : s'.disposed = s.disposed
  own : Alike (s.stage n) (s'.stage n)
  stage : ∀ m ≠ n, s'.stage m = s.stage m
  dropped : ∀ m ≠ n, s'.dropped m = s.dropped m
  resolved : ∀ m ≠ n, s'.resolved m = s.resolved m

theorem Apart.refl (n : ι) (s : Service ι β) : Apart n s s :=
  ⟨rfl, rfl, .same _, fun _ _ => rfl, fun _ _ => rfl, fun _ _ => rfl⟩

theorem Apart.place {n : ι} {s s' : Service ι β} (apart : Apart n s s') (p : Parties ι) :
    Apart n { s with toParties := p } { s' with toParties := p } :=
  { apart with parties := rfl }

variable [DecidableEq ι]

theorem Apart.alike {n : ι} {s s' : Service ι β} (apart : Apart n s s') {m : ι}
    {stage : Option (Stage β)} (known : s.stage m = stage) : Alike stage (s'.stage m) := by
  by_cases same : m = n
  · rw [← known, same]
    exact apart.own
  · rw [apart.stage m same, known]
    exact .same _

theorem Apart.move {n : ι} {s s' : Service ι β} (apart : Apart n s s') (m : ι)
    {stage stage' : Stage β} (alike : Alike (some stage) (some stage'))
    (same : m ≠ n → stage' = stage) : Apart n (s.move m stage) (s'.move m stage') := by
  refine { apart with own := ?_, stage := fun k other => ?_ }
  · by_cases here : n = m
    · simpa [here] using alike
    · simpa [here] using apart.own
  · by_cases here : k = m
    · subst here
      simp [same other]
    · simpa [here] using apart.stage k other

theorem Apart.tell {n : ι} {s s' : Service ι β} (apart : Apart n s s') (m : ι)
    {outcome outcome' : Except QueueError β} (same : m ≠ n → outcome' = outcome) :
    Apart n (s.tell m outcome) (s'.tell m outcome') := by
  have told := apart.move m (.told outcome outcome') fun other => by rw [same other]
  refine { told with resolved := fun k other => ?_ }
  by_cases here : k = m
  · subst here
    simp only [Service.tell, apart.dropped k other, same other]
    split
    · exact apart.resolved k other
    · rw [Function.update_self, Function.update_self]
  · rw [tell_resolved_of_ne _ _ _ here, tell_resolved_of_ne _ _ _ here, apart.resolved k other]

/-- Whatever happens to one of the services can happen to the other. -/
theorem Apart.step {n : ι} {s s' t : Service ι β} {e : Event ι β} (apart : Apart n s s')
    (step : Step s e t) : ∃ t', Step s' e t' ∧ Apart n t t' := by
  -- Both have the same parties, so each step finds the same place there.
  obtain ⟨p, disposed, stage, dropped, resolved⟩ := s'
  obtain rfl : p = s.toParties := apart.parties
  obtain rfl : disposed = s.disposed := apart.disposed
  cases step with
  | refuse m new disposed =>
    have new' := (apart.alike new).eq_of_open rfl
    exact ⟨_, .refuse m new' disposed, apart.tell m fun _ => rfl⟩
  | arrive m new undisposed =>
    have new' := (apart.alike new).eq_of_open rfl
    exact ⟨_, .arrive m new' undisposed, (apart.move m (.same _) fun _ => rfl).place _⟩
  | push before after m place => exact ⟨_, .push before after m place, apart.place _⟩
  | take before after m rest place first =>
    exact ⟨_, .take before after m rest place first, apart.place _⟩
  | begin m hand waiting undisposed =>
    have waiting' := (apart.alike waiting).eq_of_open rfl
    exact ⟨_, .begin m hand waiting' undisposed, apart.move m (.same _) fun _ => rfl⟩
  | skip m hand waiting disposed =>
    have waiting' := (apart.alike waiting).eq_of_open rfl
    exact ⟨_, .skip m hand waiting' disposed, apart.move m (.same _) fun _ => rfl⟩
  | conclude m ending executing =>
    have executing' := (apart.alike executing).eq_of_open rfl
    exact ⟨_, .conclude m ending executing', apart.move m (.same _) fun _ => rfl⟩
  | tell m outcome ended =>
    obtain ⟨outcome', ended'⟩ := (apart.alike ended).of_ended
    refine ⟨_, .tell m outcome' ended', apart.tell m fun other => ?_⟩
    have same := apart.stage m other
    rw [ended, ended'] at same
    cases same
    rfl
  | finish before after m place outcome told =>
    obtain ⟨outcome', told'⟩ := (apart.alike told).of_told
    exact ⟨_, .finish before after m place outcome' told', apart.place _⟩
  | turn q step items arriving inHand =>
    exact ⟨_, .turn q step items arriving inHand, apart.place q⟩
  | dispose => exact ⟨_, .dispose, { apart with disposed := rfl }⟩
  | forget m =>
    refine ⟨_, .forget m, { apart with dropped := fun k other => ?_ }⟩
    by_cases here : k = m
    · simp [here]
    · simpa [here] using apart.dropped k other

theorem Apart.conclude {n : ι} {s s' t : Service ι β} {ending : Ending β} (apart : Apart n s s')
    (step : Step s (.conclude n ending) t) (other : Ending β) :
    ∃ t', Step s' (.conclude n other) t' ∧ Apart n t t' := by
  cases step with
  | conclude _ _ executing =>
    have executing' := (apart.alike executing).eq_of_open rfl
    refine ⟨_, .conclude n other executing', apart.move n (.ended _ _) fun ne => absurd rfl ne⟩

theorem Apart.drop {n : ι} {s s' : Service ι β} (apart : Apart n s s') :
    Apart n s { s' with dropped := Function.update s'.dropped n true } :=
  { apart with dropped := fun k other => by simpa [other] using apart.dropped k other }

theorem Apart.hold {n : ι} {s s' : Service ι β} (apart : Apart n s s') :
    Apart n { s with dropped := Function.update s.dropped n true } s' :=
  { apart with dropped := fun k other => by simpa [other] using apart.dropped k other }

/-- The same run but for the end of one operation and for when its ticket is dropped. -/
inductive Retold (n : ι) : List (Event ι β) → List (Event ι β) → Prop where
  | start : Retold n [] []
  | same {trace trace' : List (Event ι β)} (retold : Retold n trace trace') (e : Event ι β) :
      Retold n (trace ++ [e]) (trace' ++ [e])
  | ending {trace trace' : List (Event ι β)} (retold : Retold n trace trace')
      (ending other : Ending β) :
      Retold n (trace ++ [.conclude n ending]) (trace' ++ [.conclude n other])
  | dropped {trace trace' : List (Event ι β)} (retold : Retold n trace trace') :
      Retold n trace (trace' ++ [.forget n])
  | held {trace trace' : List (Event ι β)} (retold : Retold n trace trace') :
      Retold n (trace ++ [.forget n]) trace'

theorem Retold.runs {n : ι} {trace trace' : List (Event ι β)} (retold : Retold n trace trace')
    {s t : Service ι β} (run : Runs s trace t) : ∃ t', Runs s trace' t' ∧ Apart n t t' := by
  induction retold generalizing t with
  | start =>
    obtain rfl := runs_nil.mp run
    exact ⟨t, .start, .refl n t⟩
  | same _ e ih =>
    obtain ⟨u, run, step⟩ := runs_concat.mp run
    obtain ⟨u', run', apart⟩ := ih run
    obtain ⟨t', step', apart⟩ := apart.step step
    exact ⟨t', run'.next step', apart⟩
  | ending _ ending other ih =>
    obtain ⟨u, run, step⟩ := runs_concat.mp run
    obtain ⟨u', run', apart⟩ := ih run
    obtain ⟨t', step', apart⟩ := apart.conclude step other
    exact ⟨t', run'.next step', apart⟩
  | dropped _ ih =>
    obtain ⟨t', run', apart⟩ := ih run
    exact ⟨_, run'.next (.forget n), apart.drop⟩
  | held _ ih =>
    obtain ⟨u, run, step⟩ := runs_concat.mp run
    obtain ⟨u', run', apart⟩ := ih run
    cases step
    exact ⟨u', run', apart.hold⟩

theorem mem_about {n : ι} {trace : List (Event ι β)} {e : Event ι β}
    (concerns : e.concerns n = true) : e ∈ about n trace ↔ e ∈ trace := by
  simp [about, concerns]

theorem countP_about {n : ι} (trace : List (Event ι β)) {p : Event ι β → Bool}
    (concerns : ∀ e : Event ι β, p e = true → e.concerns n = true) :
    (about n trace).countP p = trace.countP p := by
  rw [about, List.countP_filter]
  refine List.countP_congr fun e _ => ?_
  simpa using concerns e

theorem History.pushed_nodup {s : Service ι β} {trace : List (Event ι β)}
    (history : History trace s) : (pushedIn trace).Nodup := by
  have arrived : (arrivedIn trace).Nodup := by
    refine List.nodup_iff_count_le_one.mpr fun n => ?_
    rw [arrivedIn, List.count_filterMap, ← countP_about (n := n)]
    · have tale := history.tale n
      generalize s.stage n = stage, about n trace = past at tale ⊢
      cases tale <;> simp [Event.arrived?]
    · intro e
      cases e <;> simp [Event.arrived?, Event.concerns]
  exact (List.nodup_append.mp (history.ordered.arrived.nodup_iff.mpr arrived)).1

theorem History.resolves_once {s : Service ι β} {trace : List (Event ι β)}
    (history : History trace s) (n : ι) : trace.countP (Event.resolves n) ≤ 1 := by
  rw [← countP_about trace fun e => Event.concerns_of_resolves]
  have tale := history.tale n
  generalize s.stage n = stage, about n trace = past at tale ⊢
  cases tale <;> simp [Event.resolves]

/-- The ticket of an operation was told how that ended, and it gives that if it is still held. -/
structure Fulfilled (n : ι) (trace : List (Event ι β)) (s : Service ι β)
    (outcome : Except QueueError β) : Prop where
  told : s.stage n = some (.told outcome)
  heard : s.dropped n = false → s.resolved n = some outcome
  ended : n ∈ begunIn trace → ∃ ending, .conclude n ending ∈ trace
  own : ∀ ending, .conclude n ending ∈ trace → outcome = ending.outcome
  cancelled : n ∉ begunIn trace → outcome = .error .cancelled

theorem History.fulfilled {s : Service ι β} {trace : List (Event ι β)} (history : History trace s)
    {n : ι} {outcome : Except QueueError β} (told : s.stage n = some (.told outcome)) :
    Fulfilled n trace s outcome := by
  have tale := history.tale n
  rw [told] at tale
  have begin_iff : n ∈ begunIn trace ↔ .begin n ∈ about n trace := by
    rw [mem_begunIn, mem_about (by simp [Event.concerns])]
  have conclude_iff : ∀ ending, .conclude n ending ∈ trace ↔ .conclude n ending ∈ about n trace :=
    fun ending => (mem_about (by simp [Event.concerns])).symm
  refine ⟨told, history.answered.heard n outcome told, ?_, ?_, ?_⟩
  all_goals simp only [begin_iff, conclude_iff]; generalize about n trace = past at tale
  all_goals cases tale <;> simp

theorem History.known {s : Service ι β} {trace : List (Event ι β)} (history : History trace s)
    {n : ι} (enqueued : .arrive n ∈ trace ∨ .refuse n ∈ trace) : s.stage n ≠ none := by
  intro none
  have tale := history.tale n
  rw [none] at tale
  have some : about n trace ≠ [] := by
    rcases enqueued with member | member <;>
      exact List.ne_nil_of_mem ((mem_about (by simp [Event.concerns])).mpr member)
  generalize about n trace = past at tale some
  cases tale
  exact some rfl

theorem Runs.keeps {s t : Service ι β} {trace : List (Event ι β)} (run : Runs s trace t)
    (answered : s.Answered) : t.Answered ∧
      ∀ n outcome, s.resolved n = some outcome → t.resolved n = some outcome := by
  induction run with
  | start => exact ⟨answered, fun _ _ resolved => resolved⟩
  | next run step ih =>
    exact ⟨ih.1.step step, fun n outcome resolved => ih.1.keeps step (ih.2 n outcome resolved)⟩

/-- In every run at most one operation is executing at a time, operations begin in the order in
which they were put in and none is left out, and none begins after the disposal. A ticket gives one
outcome at most. Once nothing is in the queue and nobody is at work, each ticket was told what its
operation came to. How an operation ends, and whether its ticket is dropped, is nothing to the
others. -/
theorem runs_promises {s : Service ι β} {trace : List (Event ι β)} (run : Runs {} trace s) :
    (∀ m n, s.stage m = some .executing → s.stage n = some .executing → m = n) ∧
      (pushedIn trace).Nodup ∧ begunIn trace <+: pushedIn trace ∧
      (∀ before after, trace = before ++ .dispose :: after → begunIn after = []) ∧
      (∀ n, trace.countP (Event.resolves n) ≤ 1) ∧
      (∀ n outcome, s.resolved n = some outcome →
        ∀ later t, Runs s later t → t.resolved n = some outcome) ∧
      (s.items = [] → s.callers = [] → s.loops = [] →
        ∀ n, .arrive n ∈ trace ∨ .refuse n ∈ trace → ∃ outcome, Fulfilled n trace s outcome) ∧
      ∀ n trace', Retold n trace trace' → ∃ s', Runs {} trace' s' ∧ Apart n s s' := by
  have history := runs_history run
  refine ⟨?_, history.pushed_nodup, ?_, history.closed.still, history.resolves_once, ?_, ?_, ?_⟩
  · intro m n executing executing'
    have first := history.parties.inHand_of_mem (history.placed.hand executing rfl nofun)
    have other := history.placed.hand executing' rfl nofun
    rw [first] at other
    exact (List.mem_singleton.mp other).symm
  · obtain ⟨rest, taken, _⟩ := history.ordered.begun
    rw [history.ordered.fifo, taken, List.append_assoc]
    exact List.prefix_append _ _
  · exact fun n outcome resolved later t run => (run.keeps history.answered).2 n outcome resolved
  · intro items callers loops n enqueued
    obtain ⟨outcome, told⟩ := history.placed.told_of_idle items callers loops
      (history.known enqueued)
    exact ⟨outcome, history.fulfilled told⟩
  · exact fun n trace' retold => retold.runs run

/-- An operation enqueues another one, disposes of the queue and panics. -/
theorem runs_promises_disposed :
    let trace : List (Event Nat Nat) := [
      .arrive 1, .push 1, .turn, .turn, .take 1, .begin 1, .arrive 2, .push 2, .turn, .dispose,
      .conclude 1 .panicked, .tell 1, .finish 1, .refuse 3, .take 2, .skip 2, .tell 2, .finish 2,
      .turn, .turn, .turn]
    ∃ s : Service Nat Nat, Runs {} trace s ∧ s.items = [] ∧ s.callers = [] ∧ s.loops = [] ∧
      s.resolved 1 = some (.error .panicked) ∧ begunIn trace <+: pushedIn trace ∧
      ∀ n, .arrive n ∈ trace ∨ .refuse n ∈ trace → ∃ outcome, Fulfilled n trace s outcome := by
  intro trace
  have enqueued : Runs ({} : Service Nat Nat) [.arrive 1, .push 1, .turn, .turn] _ :=
    .next (.next (.next (.next .start (.arrive 1 rfl rfl)) (.push [] [] 1 rfl))
      (.turn _ (.win [] [] rfl rfl) rfl rfl rfl)) (.turn _ (.begin [] [] rfl) rfl rfl rfl)
  have nested := ((((((enqueued.next (.take [] [] 1 [] rfl rfl)).next
    (.begin 1 (by decide) rfl rfl)).next (.arrive 2 rfl rfl)).next (.push [] [] 2 rfl)).next
    (.turn _ (.lose [] [] rfl rfl) rfl rfl rfl)).next .dispose).next (.conclude 1 .panicked rfl)
  have skipped := ((((((nested.next (.tell 1 _ rfl)).next (.finish [] [] 1 rfl _ rfl)).next
    (.refuse 3 rfl rfl)).next (.take [] [] 2 [] rfl rfl)).next
    (.skip 2 (by decide) rfl rfl)).next (.tell 2 _ rfl)).next (.finish [] [] 2 rfl _ rfl)
  have run := ((skipped.next (.turn _ (.exhaust [] [] rfl rfl) rfl rfl rfl)).next
    (.turn _ (.release [] [] rfl) rfl rfl rfl)).next (.turn _ (.leave [] [] rfl rfl) rfl rfl rfl)
  have promises := runs_promises run
  exact ⟨_, run, rfl, rfl, rfl, rfl, promises.2.2.1, promises.2.2.2.2.2.2.1 rfl rfl rfl⟩

end Overseer.Queue.Service
