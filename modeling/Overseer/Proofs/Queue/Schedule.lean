import Overseer.Proofs.Queue.Draining
import Overseer.Queue.Script

/-!
The queue that runs takes one of the interleavings. Between two calls it has no caller at work and
at most one drain loop, and whatever a call does to it is a sequence of the steps of the parties.
-/
namespace Overseer.Queue

open Parties

variable {α : Type}

def withLoop (q : Queue α) (l : Loop (Job α)) : Parties (Job α) :=
  { items := q.pending, draining := q.draining, loops := [l] }

def parties (q : Queue α) : Parties (Job α) :=
  match q.draining, q.running with
  | true, some r => q.withLoop (.running r.job)
  | true, none => q.withLoop .popping
  | false, _ => { items := q.pending }

/-- Without a drain loop nothing runs and nothing is pending. -/
def Manned (q : Queue α) : Prop :=
  q.draining = false → q.running = none ∧ q.pending = []

/-- Two queues that the parties cannot tell apart: tickets, permits, time and notes are nothing to
them. -/
structure Same (q q' : Queue α) : Prop where
  pending : q'.pending = q.pending
  running : q'.running = q.running
  draining : q'.draining = q.draining

theorem Same.withLoop {q q' : Queue α} (same : q.Same q') (l : Loop (Job α)) :
    q'.withLoop l = q.withLoop l := by
  simp only [Queue.withLoop, same.pending, same.draining]

theorem Same.parties {q q' : Queue α} (same : q.Same q') : q'.parties = q.parties := by
  simp only [Queue.parties, same.running, same.draining, same.pending, same.withLoop]

/-- What others can make of a queue while a loop that holds the flag stays where it is. -/
def Passes (q q' : Queue α) : Prop :=
  q.draining = true →
    q'.draining = true ∧ q'.running = q.running ∧
      ∀ l, Steps (q.withLoop l) (q'.withLoop l)

theorem Same.passes {q q' : Queue α} (same : q.Same q') : q.Passes q' := by
  intro draining
  exact ⟨same.draining.trans draining, same.running, fun l => same.withLoop l ▸ .refl⟩

theorem Passes.trans {q q' q'' : Queue α} (first : q.Passes q') (later : q'.Passes q'') :
    q.Passes q'' := by
  intro draining
  obtain ⟨draining', running', steps⟩ := first draining
  obtain ⟨draining'', running'', steps'⟩ := later draining'
  exact ⟨draining'', running''.trans running', fun l => (steps l).trans (steps' l)⟩

/-- Whoever puts a job in loses the flag to the loop. -/
theorem passes_push (q : Queue α) (job : Job α) : q.Passes (q.push job) := by
  intro draining
  refine ⟨rfl, rfl, fun l => ?_⟩
  have arrived : Steps (q.withLoop l) { q.withLoop l with callers := [.arriving job] } :=
    .single (.arrive job)
  have pushed : Steps (q.withLoop l)
      { q.withLoop l with items := q.pending ++ [job], callers := [.pushed] } :=
    arrived.tail (.push [] [] job rfl)
  have left := pushed.tail (.lose [] [] rfl draining)
  simpa [withLoop, push, draining] using left

/-- An enqueue puts one job in or none. -/
theorem enqueue_cases (q : Queue α) (name : String) (operation : Operation α) :
    ∃ q₀, q.Same q₀ ∧
      (q.enqueue name operation = q₀ ∨ ∃ job, q.enqueue name operation = q₀.push job) := by
  unfold enqueue
  dsimp only
  split
  · refine ⟨_, ?_, .inl rfl⟩
    exact ⟨rfl, rfl, rfl⟩
  · refine ⟨_, ?_, .inl rfl⟩
    exact ⟨rfl, rfl, rfl⟩
  · refine ⟨_, ?_, .inr ⟨_, rfl⟩⟩
    exact ⟨rfl, rfl, rfl⟩

theorem passes_enqueue (q : Queue α) (name : String) (operation : Operation α) :
    q.Passes (q.enqueue name operation) := by
  obtain ⟨q₀, same, refused | ⟨job, pushed⟩⟩ := q.enqueue_cases name operation
  · rw [refused]
    exact same.passes
  · rw [pushed]
    exact same.passes.trans (q₀.passes_push job)

theorem passes_enqueueAll (q : Queue α) (inner : List (String × Operation α)) :
    q.Passes (q.enqueueAll inner) := by
  induction inner generalizing q with
  | nil => exact Same.passes ⟨rfl, rfl, rfl⟩
  | cons head rest ih =>
    obtain ⟨name, operation⟩ := head
    exact (q.passes_enqueue name operation).trans (ih _)

/-- What an operation does as soon as it begins is done while its loop runs it. -/
theorem begin_cases (q : Queue α) (job : Job α) :
    ∃ q₀, q.Passes q₀ ∧
      (q.begin job = q₀ ∨ ∃ w, q.begin job = { q₀ with running := some ⟨job, w⟩ }) := by
  have noted : ∀ what : String, q.Passes (q.note what job.name) :=
    fun _ => Same.passes ⟨rfl, rfl, rfl⟩
  have done : ∀ (q₀ : Queue α) (outcome : Outcome α), q₀.Passes (q₀.resolve job.ticket outcome) :=
    fun _ _ => Same.passes ⟨rfl, rfl, rfl⟩
  cases operation : job.operation with
  | nest inner =>
    have put := (noted "run").trans (passes_enqueueAll _ inner)
    exact ⟨_, put.trans (done _ (.ok .nothing)), .inl (by simp only [begin, operation])⟩
  | nestAwait ms =>
    have put := (noted "start").trans (passes_push _ ⟨none, job.name, .idle⟩)
    exact ⟨_, put, .inr ⟨.time (q.now + ms), by simp only [begin, operation]⟩⟩
  | panicAfter ms => exact ⟨_, noted "start", .inr ⟨_, by simp only [begin, operation]; rfl⟩⟩
  | sleep ms a => exact ⟨_, noted "start", .inr ⟨_, by simp only [begin, operation]; rfl⟩⟩
  | pass gate => exact ⟨_, noted "start", .inr ⟨_, by simp only [begin, operation]; rfl⟩⟩
  | untilDisposed a => exact ⟨_, noted "start", .inr ⟨_, by simp only [begin, operation]; rfl⟩⟩
  | _ =>
    simp only [begin, operation]
    refine ⟨_, Same.passes ?_, .inl rfl⟩
    exact ⟨rfl, rfl, rfl⟩

/-- What the parties can make of one queue is another, again with a loop for all its work. -/
def Leads (q q' : Queue α) : Prop :=
  q.Manned → q'.Manned ∧ Steps q.parties q'.parties

theorem Leads.trans {q q' q'' : Queue α} (first : q.Leads q') (later : q'.Leads q'') :
    q.Leads q'' := by
  intro manned
  obtain ⟨manned', steps⟩ := first manned
  obtain ⟨manned'', steps'⟩ := later manned'
  exact ⟨manned'', steps.trans steps'⟩

theorem Same.leads {q q' : Queue α} (same : q.Same q') : q.Leads q' := by
  intro manned
  refine ⟨?_, same.parties ▸ .refl⟩
  simpa only [Manned, same.pending, same.running, same.draining] using manned

theorem parties_of_draining {q : Queue α} (draining : q.draining = true) :
    q.parties = q.withLoop (q.running.elim .popping fun r => .running r.job) := by
  cases running : q.running <;> simp [parties, draining, running]

/-- Into an idle queue a job brings a drain loop of its own. -/
theorem leads_push (q : Queue α) (job : Job α) : q.Leads (q.push job) := by
  intro manned
  refine ⟨fun free => by simp [push] at free, ?_⟩
  cases draining : q.draining with
  | true =>
    obtain ⟨draining', running, steps⟩ := q.passes_push job draining
    rw [parties_of_draining draining, parties_of_draining draining', running]
    exact steps _
  | false =>
    obtain ⟨running, pending⟩ := manned draining
    have idle : q.parties = {} := by simp [parties, draining, pending]
    have arrived : Steps q.parties { callers := [.arriving job] } := by
      rw [idle]
      exact .single (.arrive job)
    have spawned : Steps q.parties { items := [job], draining := true, loops := [.spawned] } :=
      (arrived.tail (.push [] [] job rfl)).tail (.win [] [] rfl rfl)
    simpa [parties, withLoop, push, running, pending] using spawned.tail (.begin [] [] rfl)

theorem leads_enqueue (q : Queue α) (name : String) (operation : Operation α) :
    q.Leads (q.enqueue name operation) := by
  obtain ⟨q₀, same, refused | ⟨job, pushed⟩⟩ := q.enqueue_cases name operation
  · rw [refused]
    exact same.leads
  · rw [pushed]
    exact same.leads.trans (q₀.leads_push job)

/-- Once its wait is over an operation changes nothing but what the parties do not see. -/
theorem finish_same (q : Queue α) (job : Job α) :
    Same { q with running := none } (q.finish job) := by
  unfold finish
  dsimp only
  split <;> exact ⟨rfl, rfl, rfl⟩

theorem Manned.draining {q : Queue α} (manned : q.Manned)
    (work : q.running ≠ none ∨ q.pending ≠ []) : q.draining = true := by
  cases draining : q.draining with
  | true => rfl
  | false =>
    obtain ⟨running, pending⟩ := manned draining
    rcases work with some | some
    · exact absurd running some
    · exact absurd pending some

theorem leads_idle {q : Queue α} {r : Running α} (running : q.running = some r) :
    q.Leads { q with running := none } := by
  intro manned
  have draining := manned.draining (.inl (by simp [running]))
  refine ⟨fun free => by simp [draining] at free, ?_⟩
  have start : q.parties = q.withLoop (.running r.job) := by
    simp [parties, draining, running]
  have done : Steps q.parties (q.withLoop .popping) := by
    rw [start]
    exact .single (.finish [] [] r.job rfl)
  simpa [parties, withLoop, draining] using done

theorem leads_finish {q : Queue α} {r : Running α} (running : q.running = some r) :
    q.Leads (q.finish r.job) :=
  (leads_idle running).trans (q.finish_same r.job).leads

/-- An operation that is taken begins, or the queue is disposed of and it is cancelled. -/
theorem take_cases (q : Queue α) (job : Job α) (rest : List (Job α)) :
    ∃ q₀, Passes { q with pending := rest } q₀ ∧
      (q.take job rest = q₀ ∨ ∃ w, q.take job rest = { q₀ with running := some ⟨job, w⟩ }) := by
  unfold take
  dsimp only
  split
  · refine ⟨_, Same.passes ?_, .inl rfl⟩
    exact ⟨rfl, rfl, rfl⟩
  · exact begin_cases _ job

theorem leads_take {q : Queue α} {job : Job α} {rest : List (Job α)} (running : q.running = none)
    (pending : q.pending = job :: rest) : q.Leads (q.take job rest) := by
  intro manned
  have draining := manned.draining (.inr (by simp [pending]))
  obtain ⟨q₀, passes, taken⟩ := q.take_cases job rest
  obtain ⟨draining₀, running₀, steps⟩ := passes draining
  -- The loop has the job in hand before the operation begins, so what that puts in comes after it.
  have start : q.parties = q.withLoop .popping := by
    simp [parties, draining, running]
  have begun : Steps q.parties (q₀.withLoop (.running job)) := by
    rw [start]
    exact .head (.pop [] [] rfl job rest pending) (steps _)
  rcases taken with done | ⟨w, waits⟩
  · rw [done]
    refine ⟨fun free => by simp [draining₀] at free, ?_⟩
    have finished := begun.tail (.finish [] [] job rfl)
    rw [parties_of_draining draining₀, running₀.trans running]
    exact finished
  · rw [waits]
    refine ⟨fun free => by simp [draining₀] at free, ?_⟩
    simpa [parties, withLoop, draining₀] using begun

theorem leads_release {q : Queue α} (running : q.running = none) (pending : q.pending = [])
    (draining : q.draining = true) : q.Leads { q with draining := false } := by
  intro _
  refine ⟨fun _ => ⟨running, pending⟩, ?_⟩
  have start : q.parties = { draining := true, loops := [.popping] } := by
    simp [parties, withLoop, draining, running, pending]
  have released : Steps q.parties { loops := [.looking] } := by
    rw [start]
    exact .tail (.single (.exhaust [] [] rfl rfl)) (.release [] [] rfl)
  simpa [parties, pending] using released.tail (.leave [] [] rfl rfl)

/-- Each step of the drain loop of the queue that runs is some steps of a drain loop. -/
theorem leads_step {q q' : Queue α} (step : q.step? = some q') : q.Leads q' := by
  unfold step? at step
  split at step
  next r running =>
    split at step
    · cases step
      exact leads_finish running
    · contradiction
  next running =>
    split at step
    next job rest pending =>
      cases step
      exact leads_take running pending
    next pending =>
      split at step
      next draining =>
        cases step
        exact leads_release running pending draining
      · contradiction

theorem leads_stepMany (fuel : Nat) (q : Queue α) : q.Leads (stepMany fuel q) := by
  induction fuel generalizing q with
  | zero => exact Same.leads ⟨rfl, rfl, rfl⟩
  | succ fuel ih =>
    unfold stepMany
    split
    · exact Same.leads ⟨rfl, rfl, rfl⟩
    next q' step => exact (leads_step step).trans (ih q')

theorem leads_settle (q : Queue α) : q.Leads q.settle :=
  leads_stepMany q.weight q

theorem leads_advanceTo (target fuel : Nat) (q : Queue α) : q.Leads (advanceTo target fuel q) := by
  have later : ∀ (q : Queue α) (now : Nat), q.Leads { q.settle with now } :=
    fun q now => q.leads_settle.trans (Same.leads ⟨rfl, rfl, rfl⟩)
  induction fuel generalizing q with
  | zero => exact later q target
  | succ fuel ih =>
    unfold advanceTo
    dsimp only
    split
    next due _ =>
      split
      · exact (later q due).trans (ih _)
      · exact later q target
    · exact later q target

theorem leads_apply (q : Queue α) (e : Queue.Step α) : q.Leads (q.apply e).view.2 := by
  have shown : ∀ q : Queue α, q.Leads q.view.2 := fun q => Same.leads ⟨rfl, rfl, rfl⟩
  have same : ∀ {q' : Queue α}, q.Same q' → q.Leads q'.view.2 := fun s => s.leads.trans (shown _)
  cases e with
  | enqueue name operation => exact (q.leads_enqueue name operation).trans (shown _)
  | dispose => exact same ⟨rfl, rfl, rfl⟩
  | unlock gate => exact same ⟨rfl, rfl, rfl⟩
  | forget name => exact same ⟨rfl, rfl, rfl⟩
  | settle => exact q.leads_settle.trans (shown _)
  | advance ms => exact (leads_advanceTo _ _ q).trans (shown _)

/-- After any script the queue is as some interleaving of callers and drain loops leaves it. -/
theorem script_reachable (steps : List (Queue.Step α)) :
    Reachable (steps.foldl (fun q e => (q.apply e).view.2) ({} : Queue α)).parties := by
  have leads : ∀ q : Queue α, q.Leads (steps.foldl (fun q e => (q.apply e).view.2) q) := by
    induction steps with
    | nil => exact fun q => Same.leads ⟨rfl, rfl, rfl⟩
    | cons e steps ih => exact fun q => (q.leads_apply e).trans (ih _)
  exact (leads {} fun _ => ⟨rfl, rfl⟩).2

end Overseer.Queue
