import Overseer.Proofs.Queue.Histories
import Overseer.Proofs.Queue.Schedule

/-!
The tickets of the queue that runs. Between two calls, and also while an operation is at work, the
queue mirrors what some run of callers and drain loops leaves, and each of its tickets shows what
that run told it.
-/
namespace Overseer.Queue

open Service

variable {α : Type}

abbrev Key := Nat ⊕ Nat

def Job.Bears (job : Job α) : Key → Prop
  | .inl number => job.ticket = some number
  | .inr _ => job.ticket = none

theorem Job.Bears.ticket_iff {job : Job α} {n : Key} (bears : job.Bears n) {number : Nat} :
    some number = job.ticket ↔ .inl number = n := by
  cases n <;> simp_all [Job.Bears]

inductive Post (α : Type) where
  | away
  | popping
  | busy (n : Key) (stage : Stage (Yield α))

def Post.loops : Post α → List (Loop Key)
  | .away => []
  | .popping => [.popping]
  | .busy n _ => [.running n]

/-- A ticket shows what it was told. Tickets that came without any operation are cancelled. -/
def Ticket.Shows (t : Ticket α) (s : Service Key (Yield α)) : Prop :=
  (s.stage (.inl t.number) ≠ none ∧ t.outcome = s.resolved (.inl t.number)) ∨
    (s.stage (.inl t.number) = none ∧ t.outcome = some (.error .cancelled))

/-- Which numbers of tickets were not given out, and that others can be found. -/
structure Spare (next : Nat) (stage : Key → Option (Stage (Yield α))) : Prop where
  tickets : ∀ number, next ≤ number → stage (.inl number) = none
  others : ∃ bound, ∀ number, bound ≤ number → stage (.inr number) = none

theorem Spare.mono {next : Nat} {stage stage' : Key → Option (Stage (Yield α))}
    (spare : Spare next stage) (same : ∀ n, stage n = none → stage' n = none) :
    Spare next stage' where
  tickets number above := same _ (spare.tickets number above)
  others := spare.others.imp fun _ none number above => same _ (none number above)

theorem Spare.put {next : Nat} {stage : Key → Option (Stage (Yield α))} (spare : Spare next stage)
    {n : Key} (below : ∀ number, next ≤ number → n ≠ .inl number) :
    Spare next (Function.update stage n (some .waiting)) where
  tickets number above :=
    (Function.update_of_ne (below number above).symm _ _).trans (spare.tickets number above)
  others := by
    obtain ⟨bound, none⟩ := spare.others
    cases n with
    | inl => exact ⟨bound, fun number above => none number above⟩
    | inr own =>
      refine ⟨max bound (own + 1), fun number above => ?_⟩
      have other : (.inr number : Key) ≠ .inr own := fun same => by
        injection same
        omega
      exact (Function.update_of_ne other _ _).trans (none number (by omega))

structure Mirrors (q : Queue α) (post : Post α) (s : Service Key (Yield α)) : Prop where
  run : ∃ trace, Runs {} trace s
  items : List.Forall₂ Job.Bears q.pending s.items
  draining : s.draining = q.draining
  callers : s.callers = []
  loops : s.loops = post.loops
  hand : ∀ n stage, post = .busy n stage → s.stage n = some stage
  disposed : s.disposed = q.disposed
  held : ∀ n, s.dropped n = false
  tickets : ∀ t ∈ q.tickets, t.number < q.next ∧ t.Shows s
  spare : Spare q.next s.stage

theorem mirrors_empty : Mirrors ({} : Queue α) .away {} where
  run := ⟨[], .start⟩
  items := .nil
  draining := rfl
  callers := rfl
  loops := rfl
  hand _ _ busy := nomatch busy
  disposed := rfl
  held _ := rfl
  tickets _ member := nomatch member
  spare := ⟨fun _ _ => rfl, 0, fun _ _ => rfl⟩

section

variable {q : Queue α} {post : Post α} {s : Service Key (Yield α)}

theorem Mirrors.history (mirrors : Mirrors q post s) : ∃ trace, History trace s :=
  mirrors.run.imp fun _ => runs_history

theorem Mirrors.manned (mirrors : Mirrors q post s) (there : post ≠ .away) :
    q.draining = true := by
  obtain ⟨_, history⟩ := mirrors.history
  rw [← mirrors.draining]
  cases post with
  | away => exact absurd rfl there
  | popping =>
    have place : s.loops = [] ++ .popping :: [] := mirrors.loops
    exact (history.parties.alone place rfl).1
  | busy n stage =>
    have place : s.loops = [] ++ .running n :: [] := mirrors.loops
    exact (history.parties.alone place rfl).1

theorem Mirrors.unmanned (mirrors : Mirrors q .away s) :
    q.draining = false ∧ q.pending = [] := by
  obtain ⟨_, history⟩ := mirrors.history
  have flag := history.parties.flag
  rw [mirrors.loops, mirrors.draining] at flag
  have free : q.draining = false := by simpa [Post.loops] using flag.symm
  refine ⟨free, ?_⟩
  have items : s.items = [] := by
    by_contra some
    have covered := history.parties.covered some
    simp [mirrors.draining, free, mirrors.callers, mirrors.loops, Post.loops] at covered
  have all := mirrors.items
  rw [items] at all
  exact List.forall₂_nil_right_iff.mp all

theorem Mirrors.congr {q' : Queue α} (mirrors : Mirrors q post s) (pending : q'.pending = q.pending)
    (draining : q'.draining = q.draining) (disposed : q'.disposed = q.disposed)
    (tickets : q'.tickets ⊆ q.tickets) (next : q'.next = q.next) : Mirrors q' post s where
  run := mirrors.run
  items := pending ▸ mirrors.items
  draining := draining ▸ mirrors.draining
  callers := mirrors.callers
  loops := mirrors.loops
  hand := mirrors.hand
  disposed := disposed ▸ mirrors.disposed
  held := mirrors.held
  tickets t member := next ▸ mirrors.tickets t (tickets member)
  spare := next ▸ mirrors.spare

structure Unused (q : Queue α) (s : Service Key (Yield α)) (n : Key) : Prop where
  stage : s.stage n = none
  below : ∀ number, q.next ≤ number → n ≠ .inl number
  ticket : ∀ t ∈ q.tickets, .inl t.number ≠ n

theorem Ticket.Shows.move {t : Ticket α} (shown : t.Shows s) {n : Key} (stage : Stage (Yield α))
    (own : s.stage n = none → .inl t.number ≠ n) : t.Shows (s.move n stage) := by
  by_cases same : .inl t.number = n
  · rcases shown with ⟨_, told⟩ | ⟨none, _⟩
    · exact .inl ⟨by simp [same], told⟩
    · exact absurd same (own (same ▸ none))
  · have kept : (s.move n stage).stage (.inl t.number) = s.stage (.inl t.number) :=
      Function.update_of_ne same _ _
    rwa [Shows, kept]

theorem Ticket.Shows.tell {t : Ticket α} (shown : t.Shows s) {n : Key} {outcome : Outcome α}
    (other : .inl t.number ≠ n) : t.Shows (s.tell n outcome) := by
  have kept : (s.tell n outcome).stage (.inl t.number) = s.stage (.inl t.number) :=
    Function.update_of_ne other _ _
  rwa [Shows, kept, tell_resolved_of_ne s n outcome other]

theorem Mirrors.put (mirrors : Mirrors q post s) {job : Job α} {n : Key} (bears : job.Bears n)
    (unused : Unused q s n) {post' : Post α}
    (kept : ∀ m stage, post' = .busy m stage → post = .busy m stage) {p : Parties Key}
    (run : ∃ trace, Runs {} trace { s.move n .waiting with toParties := p })
    (items : p.items = s.items ++ [n]) (draining : p.draining = true) (callers : p.callers = [])
    (loops : p.loops = post'.loops) :
    Mirrors (q.push job) post' { s.move n .waiting with toParties := p } where
  run := run
  items := items ▸ List.rel_append mirrors.items (.cons bears .nil)
  draining := draining
  callers := callers
  loops := loops
  hand m stage busy := by
    have known := mirrors.hand m stage (kept m stage busy)
    have other : m ≠ n := fun same => by
      rw [same, unused.stage] at known
      contradiction
    exact (Function.update_of_ne other _ _).trans known
  disposed := mirrors.disposed
  held := mirrors.held
  tickets t member := by
    obtain ⟨known, shown⟩ := mirrors.tickets t member
    exact ⟨known, shown.move _ fun _ => unused.ticket t member⟩
  spare := mirrors.spare.put unused.below

theorem runs_put {trace : List (Event Key (Yield α))} (run : Runs {} trace s) {n : Key}
    (callers : s.callers = []) (new : s.stage n = none) (undisposed : s.disposed = false) :
    Runs {} (trace ++ [.arrive n] ++ [.push n])
      { s.move n .waiting with items := s.items ++ [n], callers := [.pushed] } :=
  (run.next (.arrive n new undisposed)).next (.push [] [] n (by simp [callers]))

/-- Whoever puts a job in leaves it to the loop. -/
theorem Mirrors.push (mirrors : Mirrors q post s) (there : post ≠ .away)
    (undisposed : q.disposed = false) {job : Job α} {n : Key} (bears : job.Bears n)
    (unused : Unused q s n) :
    ∃ s', Mirrors (q.push job) post s' ∧ s'.stage n = some .waiting := by
  obtain ⟨trace, run⟩ := mirrors.run
  have set := mirrors.draining.trans (mirrors.manned there)
  have put := runs_put run mirrors.callers unused.stage (mirrors.disposed.trans undisposed)
  have left := put.next (.turn _ (.lose [] [] rfl set) rfl rfl rfl)
  exact ⟨_, mirrors.put bears unused (fun _ _ busy => busy) ⟨_, left⟩ rfl set rfl mirrors.loops,
    Function.update_self _ _ _⟩

/-- Into an idle queue a job brings a loop of its own. -/
theorem Mirrors.wake (mirrors : Mirrors q .away s) (undisposed : q.disposed = false) {job : Job α}
    {n : Key} (bears : job.Bears n) (unused : Unused q s n) :
    ∃ s', Mirrors (q.push job) .popping s' ∧ s'.stage n = some .waiting := by
  have free : s.draining = false := mirrors.draining.trans mirrors.unmanned.1
  obtain ⟨trace, run⟩ := mirrors.run
  have put := runs_put run mirrors.callers unused.stage (mirrors.disposed.trans undisposed)
  obtain ⟨⟨items, draining, callers, loops⟩, disposed, stage, dropped, resolved⟩ := s
  obtain rfl : loops = [] := mirrors.loops
  have spawned := (put.next (.turn _ (.win [] [] rfl free) rfl rfl rfl)).next
    (.turn _ (.begin [] [] rfl) rfl rfl rfl)
  exact ⟨_, mirrors.put bears unused (by nofun) ⟨_, spawned⟩ rfl rfl rfl rfl,
    Function.update_self _ _ _⟩

theorem Mirrors.dispose (mirrors : Mirrors q post s) :
    Mirrors q.dispose post { s with disposed := true } := by
  obtain ⟨trace, run⟩ := mirrors.run
  exact { mirrors with run := ⟨_, run.next .dispose⟩, disposed := rfl }

theorem Mirrors.take (mirrors : Mirrors q .popping s) {job : Job α} {rest : List (Job α)}
    (pending : q.pending = job :: rest) :
    ∃ n s', job.Bears n ∧ Mirrors { q with pending := rest } (.busy n .waiting) s' := by
  obtain ⟨trace, run⟩ := mirrors.run
  have items := mirrors.items
  rw [pending] at items
  obtain ⟨n, others, bears, same, first⟩ := List.forall₂_cons_left_iff.mp items
  have waiting := (runs_history run).placed.waiting n (List.mem_append_right _ (by simp [first]))
  have taken := run.next (.take [] [] n others mirrors.loops first)
  refine ⟨n, _, bears, { mirrors with run := ⟨_, taken⟩, items := same, loops := rfl, hand := ?_ }⟩
  rintro _ _ ⟨⟩
  exact waiting

theorem Mirrors.release (mirrors : Mirrors q .popping s) (pending : q.pending = []) :
    ∃ s', Mirrors { q with draining := false } .away s' := by
  obtain ⟨trace, run⟩ := mirrors.run
  have none : s.items = [] := List.forall₂_nil_left_iff.mp (pending ▸ mirrors.items)
  obtain ⟨⟨items, draining, callers, loops⟩, disposed, stage, dropped, resolved⟩ := s
  obtain rfl : loops = [.popping] := mirrors.loops
  have noted := run.next (.turn _ (.exhaust [] [] rfl none) rfl rfl rfl)
  have released := noted.next (.turn _ (.release [] [] rfl) rfl rfl rfl)
  have left := released.next (.turn _ (.leave [] [] rfl none) rfl rfl rfl)
  exact ⟨_, { mirrors with run := ⟨_, left⟩, draining := rfl, loops := rfl, hand := nofun }⟩

theorem Mirrors.move {n : Key} {old : Stage (Yield α)} (mirrors : Mirrors q (.busy n old) s)
    (stage : Stage (Yield α)) (run : ∃ trace, Runs {} trace (s.move n stage)) :
    Mirrors q (.busy n stage) (s.move n stage) := by
  have known : s.stage n ≠ none := by simp [mirrors.hand n old rfl]
  refine { mirrors with run := run, hand := ?_, tickets := ?_, spare := ?_ }
  · rintro _ _ ⟨⟩
    exact Function.update_self _ _ _
  · intro t member
    obtain ⟨below, shown⟩ := mirrors.tickets t member
    exact ⟨below, shown.move stage fun none => absurd none known⟩
  · refine mirrors.spare.mono fun m none => ?_
    have other : m ≠ n := fun same => known (same ▸ none)
    exact (Function.update_of_ne other _ _).trans none

theorem Mirrors.begin {n : Key} (mirrors : Mirrors q (.busy n .waiting) s)
    (undisposed : q.disposed = false) : ∃ s', Mirrors q (.busy n .executing) s' := by
  obtain ⟨trace, run⟩ := mirrors.run
  have hand : n ∈ s.inHand := by simp [Parties.inHand, mirrors.loops, Post.loops, Loop.item?]
  exact ⟨_, mirrors.move _ ⟨_, run.next (.begin n hand (mirrors.hand n _ rfl)
    (mirrors.disposed.trans undisposed))⟩⟩

theorem Mirrors.skip {n : Key} (mirrors : Mirrors q (.busy n .waiting) s)
    (disposed : q.disposed = true) : ∃ s', Mirrors q (.busy n (.ended (.error .cancelled))) s' := by
  obtain ⟨trace, run⟩ := mirrors.run
  have hand : n ∈ s.inHand := by simp [Parties.inHand, mirrors.loops, Post.loops, Loop.item?]
  exact ⟨_, mirrors.move _ ⟨_, run.next (.skip n hand (mirrors.hand n _ rfl)
    (mirrors.disposed.trans disposed))⟩⟩

theorem Mirrors.conclude {n : Key} (mirrors : Mirrors q (.busy n .executing) s)
    (ending : Ending (Yield α)) : ∃ s', Mirrors q (.busy n (.ended ending.outcome)) s' := by
  obtain ⟨trace, run⟩ := mirrors.run
  exact ⟨_, mirrors.move _ ⟨_, run.next (.conclude n ending (mirrors.hand n _ rfl))⟩⟩

/-- The ticket of the job in hand is told, and the loop goes on. -/
theorem Mirrors.settle {n : Key} {outcome : Outcome α}
    (mirrors : Mirrors q (.busy n (.ended outcome)) s) {job : Job α} (bears : job.Bears n) :
    ∃ s', Mirrors (q.resolve job.ticket outcome) .popping s' := by
  obtain ⟨trace, run⟩ := mirrors.run
  have ended := mirrors.hand n _ rfl
  have told := run.next (.tell n outcome ended)
  have finished := told.next (.finish [] [] n mirrors.loops outcome (Function.update_self _ _ _))
  refine ⟨_, { mirrors with
    run := ⟨_, finished⟩, loops := rfl, hand := nofun, tickets := ?_, spare := ?_ }⟩
  · intro t' member
    obtain ⟨t, old, rfl⟩ := List.mem_map.mp member
    obtain ⟨below, shown⟩ := mirrors.tickets t old
    simp only [bears.ticket_iff]
    split
    next own =>
      refine ⟨below, .inl ?_⟩
      rw [own]
      exact ⟨by simp, (tell_resolved_self s n outcome (mirrors.held n)).symm⟩
    next other => exact ⟨below, shown.tell other⟩
  · refine mirrors.spare.mono fun m none => ?_
    have other : m ≠ n := fun same => by simp [same, ended] at none
    exact (Function.update_of_ne other _ _).trans none

theorem Mirrors.done {n : Key} (mirrors : Mirrors q (.busy n .executing) s) {job : Job α}
    (bears : job.Bears n) (ending : Ending (Yield α)) :
    ∃ s', Mirrors (q.resolve job.ticket ending.outcome) .popping s' := by
  obtain ⟨_, ended⟩ := mirrors.conclude ending
  exact ended.settle bears

theorem Mirrors.unresolved (mirrors : Mirrors q post s) {n : Key}
    (waiting : s.stage n = some .waiting) : s.resolved n = none := by
  obtain ⟨_, history⟩ := mirrors.history
  cases resolved : s.resolved n with
  | none => rfl
  | some outcome =>
    have told := history.answered.told n outcome resolved
    simp [waiting] at told

theorem Mirrors.addTicket (mirrors : Mirrors q post s) {t : Ticket α} (below : t.number < q.next)
    (shown : t.Shows s) : Mirrors (q.addTicket t) post s := by
  refine { mirrors with tickets := fun u member => ?_ }
  rcases List.mem_append.mp member with old | new
  · exact mirrors.tickets u (List.mem_filter.mp old).1
  · rw [List.mem_singleton.mp new]
    exact ⟨below, shown⟩

theorem Mirrors.count (mirrors : Mirrors q post s) :
    Mirrors { q with next := q.next + 1 } post s := by
  refine { mirrors with
    tickets := fun t member => (mirrors.tickets t member).imp_left Nat.lt_succ_of_lt
    spare := ⟨fun number above => ?_, mirrors.spare.others⟩ }
  exact mirrors.spare.tickets number (Nat.le_of_succ_le above)

/-- An enqueue that is refused tells its ticket so. -/
theorem Mirrors.refuse (mirrors : Mirrors q post s) (disposed : q.disposed = true) :
    Mirrors { q with next := q.next + 1 } post (s.tell (.inl q.next) (.error .cancelled)) := by
  obtain ⟨trace, run⟩ := mirrors.run
  have new := mirrors.spare.tickets q.next (Nat.le_refl _)
  have others : ∀ m, m ≠ .inl q.next →
      (s.tell (.inl q.next) (.error .cancelled)).stage m = s.stage m :=
    fun m other => Function.update_of_ne other _ _
  refine { mirrors.count with
    run := ⟨_, run.next (.refuse _ new (mirrors.disposed.trans disposed))⟩
    hand := fun n stage busy => ?_
    tickets := fun t member => ?_
    spare := ⟨fun number above => ?_, ?_⟩ }
  · have known := mirrors.hand n stage busy
    rw [others n fun same => by simp [same ▸ new] at known, known]
  · obtain ⟨below, shown⟩ := mirrors.tickets t member
    exact ⟨Nat.lt_succ_of_lt below, shown.tell (by simpa using Nat.ne_of_lt below)⟩
  · rw [others _ (by simpa using Nat.ne_of_gt above)]
    exact mirrors.spare.tickets number (Nat.le_of_succ_le above)
  · exact mirrors.spare.others.imp fun _ none number above =>
      (others _ (by simp)).trans (none number above)

/-- A job whose ticket is the next one leaves the loop where it is, or it brings one. -/
theorem Mirrors.enter (mirrors : Mirrors q post s) (undisposed : q.disposed = false)
    (name : String) (operation : Operation α) :
    ∃ post' s', Mirrors
        ((Queue.addTicket { q with next := q.next + 1 } ⟨name, q.next, none⟩).push
          ⟨some q.next, name, operation⟩) post' s' ∧
      (post' = post ∨ post = .away ∧ post' = .popping) := by
  have bears : (⟨some q.next, name, operation⟩ : Job α).Bears (.inl q.next) := rfl
  have unused : Unused { q with next := q.next + 1 } s (.inl q.next) := by
    refine ⟨mirrors.spare.tickets q.next (Nat.le_refl _), fun number above => ?_,
      fun t member => ?_⟩
    · simpa using Nat.ne_of_lt above
    · simpa using Nat.ne_of_lt (mirrors.tickets t member).1
  have entered : ∃ post' s',
      Mirrors (Queue.push { q with next := q.next + 1 } ⟨some q.next, name, operation⟩) post' s' ∧
        s'.stage (.inl q.next) = some .waiting ∧
        (post' = post ∨ post = .away ∧ post' = .popping) := by
    by_cases there : post = .away
    · subst there
      obtain ⟨s', woken, waiting⟩ := mirrors.count.wake undisposed bears unused
      exact ⟨_, s', woken, waiting, .inr ⟨rfl, rfl⟩⟩
    · obtain ⟨s', put, waiting⟩ := mirrors.count.push there undisposed bears unused
      exact ⟨_, s', put, waiting, .inl rfl⟩
  -- The ticket is listed after its job is in, when it is known and has told nothing.
  obtain ⟨post', s', put, waiting, posts⟩ := entered
  refine ⟨post', s', ?_, posts⟩
  exact put.addTicket (t := ⟨name, q.next, none⟩) (Nat.lt_succ_self _)
    (.inl ⟨by simp [waiting], (put.unresolved waiting).symm⟩)

theorem Mirrors.enqueue (mirrors : Mirrors q post s) (name : String) (operation : Operation α) :
    ∃ post' s', Mirrors (q.enqueue name operation) post' s' ∧
      (post' = post ∨ post = .away ∧ post' = .popping) := by
  have new := mirrors.spare.tickets q.next (Nat.le_refl _)
  unfold Queue.enqueue
  dsimp only
  split
  · exact ⟨post, s, mirrors.count.addTicket (Nat.lt_succ_self _) (.inr ⟨new, rfl⟩), .inl rfl⟩
  next disposed =>
    refine ⟨post, _, (mirrors.refuse disposed).addTicket (Nat.lt_succ_self _) (.inl ?_), .inl rfl⟩
    exact ⟨by simp, (tell_resolved_self s _ _ (mirrors.held _)).symm⟩
  next undisposed => exact mirrors.enter undisposed name _

theorem Mirrors.enqueueAll (mirrors : Mirrors q post s) (there : post ≠ .away)
    (inner : List (String × Operation α)) : ∃ s', Mirrors (q.enqueueAll inner) post s' := by
  induction inner generalizing q s with
  | nil => exact ⟨s, mirrors⟩
  | cons head rest ih =>
    obtain ⟨_, s', put, rfl | ⟨away, _⟩⟩ := mirrors.enqueue head.1 head.2
    · exact ih put
    · exact absurd away there

theorem Mirrors.pushSilent (mirrors : Mirrors q post s) (there : post ≠ .away)
    (undisposed : q.disposed = false) (name : String) (operation : Operation α) :
    ∃ s', Mirrors (q.push ⟨none, name, operation⟩) post s' := by
  obtain ⟨bound, spare⟩ := mirrors.spare.others
  have unused : Unused q s (.inr bound) := by
    refine ⟨spare bound (Nat.le_refl _), ?_, ?_⟩ <;> simp
  have bears : (⟨none, name, operation⟩ : Job α).Bears (.inr bound) := rfl
  obtain ⟨s', put, _⟩ := mirrors.push there undisposed bears unused
  exact ⟨s', put⟩

end

/-- The queue mirrors what a run leaves, with the loop where it is between two steps. -/
inductive Rests (q : Queue α) : Prop where
  | away (s : Service Key (Yield α)) (mirrors : Mirrors q .away s) (running : q.running = none)
  | popping (s : Service Key (Yield α)) (mirrors : Mirrors q .popping s)
      (running : q.running = none)
  | busy (s : Service Key (Yield α)) (r : Running α) (n : Key) (bears : r.job.Bears n)
      (mirrors : Mirrors q (.busy n .executing) s) (running : q.running = some r)

theorem rests_done {q : Queue α} {n : Key} {s : Service Key (Yield α)}
    (mirrors : Mirrors q (.busy n .executing) s) {job : Job α} (bears : job.Bears n)
    (ending : Ending (Yield α)) (running : q.running = none) :
    Rests (q.resolve job.ticket ending.outcome) := by
  obtain ⟨s', done⟩ := mirrors.done bears ending
  exact .popping s' done running

theorem rests_wait {q : Queue α} {n : Key} {s : Service Key (Yield α)}
    (mirrors : Mirrors q (.busy n .executing) s) {job : Job α} (bears : job.Bears n) (w : Wait) :
    Rests { q with running := some ⟨job, w⟩ } :=
  .busy s ⟨job, w⟩ n bears { mirrors with } rfl

/-- Whatever an operation does as soon as it begins, it does while its loop has it in hand. -/
theorem rests_begin {q : Queue α} {n : Key} {s : Service Key (Yield α)}
    (mirrors : Mirrors q (.busy n .executing) s) {job : Job α} (bears : job.Bears n)
    (undisposed : q.disposed = false) (running : q.running = none) : Rests (q.begin job) := by
  have noted : ∀ what, Mirrors (q.note what job.name) (.busy n .executing) s :=
    fun _ => { mirrors with }
  unfold Queue.begin
  cases job.operation with
  | action => exact rests_done (noted "run") bears (.returned .nothing) running
  | value a => exact rests_done (noted "run") bears (.returned (.value a)) running
  | panic => exact rests_done (noted "run") bears .panicked running
  | dispose => exact rests_done (noted "run").dispose bears (.returned .nothing) running
  | unlock gate =>
    have unlocked : Mirrors ((q.note "run" job.name).unlock gate) (.busy n .executing) s :=
      { noted "run" with }
    exact rests_done unlocked bears (.returned .nothing) running
  | nest inner =>
    obtain ⟨s', put⟩ := (noted "run").enqueueAll nofun inner
    have kept := (passes_enqueueAll (q.note "run" job.name) inner (mirrors.manned nofun)).2.1
    exact rests_done put bears (.returned .nothing) (kept.trans running)
  | panicAfter ms => exact rests_wait (noted "start") bears (.time (q.now + ms))
  | sleep ms a => exact rests_wait (noted "start") bears (.time (q.now + ms))
  | pass gate => exact rests_wait (noted "start") bears (.permit gate)
  | untilDisposed a => exact rests_wait (noted "start") bears .disposal
  | nestAwait ms =>
    obtain ⟨s', put⟩ := (noted "start").pushSilent nofun undisposed job.name .idle
    exact rests_wait put bears (.time (q.now + ms))
  | idle => exact rests_done mirrors bears (.returned .nothing) running
  | cancelled => exact rests_done mirrors bears (.returned .nothing) running

theorem rests_finish {q : Queue α} {n : Key} {s : Service Key (Yield α)}
    (mirrors : Mirrors q (.busy n .executing) s) {job : Job α} (bears : job.Bears n) :
    Rests (q.finish job) := by
  have idle : Mirrors { q with running := none } (.busy n .executing) s := { mirrors with }
  have noted : ∀ what, Mirrors (note { q with running := none } what job.name)
      (.busy n .executing) s := fun _ => { mirrors with }
  unfold Queue.finish
  cases job.operation with
  | panicAfter ms => exact rests_done idle bears .panicked rfl
  | nestAwait ms => exact rests_done (noted "timeout") bears (.returned .nothing) rfl
  | sleep ms a => exact rests_done (noted "end") bears (.returned (.value a)) rfl
  | untilDisposed a => exact rests_done (noted "end") bears (.returned (.value a)) rfl
  | pass gate =>
    have passed : Mirrors
        (note { q with running := none, permits := q.permits.erase gate } "end" job.name)
        (.busy n .executing) s := { mirrors with }
    exact rests_done passed bears (.returned (.disposal q.disposed)) rfl
  | _ => exact rests_done idle bears (.returned .nothing) rfl

theorem rests_take {q : Queue α} {s : Service Key (Yield α)} (mirrors : Mirrors q .popping s)
    {job : Job α} {rest : List (Job α)} (pending : q.pending = job :: rest)
    (running : q.running = none) : Rests (q.take job rest) := by
  obtain ⟨n, s', bears, taken⟩ := mirrors.take pending
  unfold Queue.take
  dsimp only
  split
  next disposed =>
    obtain ⟨_, skipped⟩ := taken.skip disposed
    obtain ⟨s'', settled⟩ := skipped.settle bears
    exact .popping s'' settled running
  next undisposed =>
    have undisposed := Bool.eq_false_iff.mpr undisposed
    obtain ⟨_, begun⟩ := taken.begin undisposed
    exact rests_begin begun bears undisposed running

theorem Rests.step {q q' : Queue α} (rests : Rests q) (step : q.step? = some q') : Rests q' := by
  cases rests with
  | away s mirrors running =>
    obtain ⟨free, pending⟩ := mirrors.unmanned
    simp [Queue.step?, running, pending, free] at step
  | popping s mirrors running =>
    cases pending : q.pending with
    | cons job rest =>
      simp only [Queue.step?, running, pending, Option.some_inj] at step
      exact step ▸ rests_take mirrors pending running
    | nil =>
      have draining : q.draining = true := mirrors.manned nofun
      simp only [Queue.step?, running, pending, draining, if_true, Option.some_inj] at step
      obtain ⟨s', left⟩ := mirrors.release pending
      obtain rfl : q' = { q with draining := false } := by rw [← step, running, pending]
      exact .away s' left running
  | busy s r n bears mirrors running =>
    simp only [Queue.step?, running, Option.ite_none_right_eq_some, Option.some_inj] at step
    exact step.2 ▸ rests_finish mirrors bears

theorem Rests.stepMany {q : Queue α} (rests : Rests q) (fuel : Nat) : Rests (stepMany fuel q) := by
  induction fuel generalizing q with
  | zero => exact rests
  | succ fuel ih =>
    unfold Queue.stepMany
    split
    · exact rests
    next q' step => exact ih (rests.step step)

theorem Rests.settle {q : Queue α} (rests : Rests q) : Rests q.settle :=
  rests.stepMany q.weight

/-- What neither the parties nor the tickets are about can change. -/
theorem Rests.congr {q q' : Queue α} (rests : Rests q) (running : q'.running = q.running)
    (mirrors : ∀ {post : Post α} {s}, Mirrors q post s → ∃ s', Mirrors q' post s') : Rests q' := by
  cases rests with
  | away s old idle =>
    obtain ⟨s', new⟩ := mirrors old
    exact .away s' new (running.trans idle)
  | popping s old idle =>
    obtain ⟨s', new⟩ := mirrors old
    exact .popping s' new (running.trans idle)
  | busy s r n bears old busy =>
    obtain ⟨s', new⟩ := mirrors old
    exact .busy s' r n bears new (running.trans busy)

theorem Rests.advanceTo {q : Queue α} (rests : Rests q) (target fuel : Nat) :
    Rests (advanceTo target fuel q) := by
  have later : ∀ {q : Queue α} (now : Nat), Rests q → Rests { q.settle with now } :=
    fun now rests => rests.settle.congr rfl fun mirrors => ⟨_, { mirrors with }⟩
  induction fuel generalizing q with
  | zero => exact later target rests
  | succ fuel ih =>
    unfold Queue.advanceTo
    dsimp only
    split
    next due _ =>
      split
      · exact ih (later due rests)
      · exact later target rests
    · exact later target rests

theorem running_enqueue (q : Queue α) (name : String) (operation : Operation α) :
    (q.enqueue name operation).running = q.running := by
  unfold Queue.enqueue
  dsimp only
  split <;> rfl

theorem Rests.enqueue {q : Queue α} (rests : Rests q) (name : String) (operation : Operation α) :
    Rests (q.enqueue name operation) := by
  have kept := q.running_enqueue name operation
  cases rests with
  | away s mirrors running =>
    obtain ⟨_, s', put, rfl | ⟨_, rfl⟩⟩ := mirrors.enqueue name operation
    · exact .away s' put (kept.trans running)
    · exact .popping s' put (kept.trans running)
  | popping s mirrors running =>
    obtain ⟨_, s', put, rfl | ⟨there, _⟩⟩ := mirrors.enqueue name operation
    · exact .popping s' put (kept.trans running)
    · contradiction
  | busy s r n bears mirrors running =>
    obtain ⟨_, s', put, rfl | ⟨there, _⟩⟩ := mirrors.enqueue name operation
    · exact .busy s' r n bears put (kept.trans running)
    · contradiction

theorem Rests.apply {q : Queue α} (rests : Rests q) (e : Queue.Step α) :
    Rests (q.apply e) := by
  cases e with
  | enqueue name operation => exact rests.enqueue name operation
  | dispose => exact rests.congr rfl fun mirrors => ⟨_, mirrors.dispose⟩
  | unlock gate => exact rests.congr rfl fun mirrors => ⟨_, { mirrors with }⟩
  | forget name =>
    exact rests.congr rfl fun mirrors =>
      ⟨_, mirrors.congr rfl rfl rfl (List.filter_subset_self _) rfl⟩
  | settle => exact rests.settle
  | advance ms => exact rests.advanceTo _ _

theorem Rests.view {q : Queue α} (rests : Rests q) : Rests q.view.2 :=
  rests.congr rfl fun mirrors => ⟨_, mirrors.congr rfl rfl rfl (List.filter_subset_self _) rfl⟩

theorem Mirrors.outcome_of_away {q : Queue α} {s : Service Key (Yield α)}
    (mirrors : Mirrors q .away s) {t : Ticket α} (member : t ∈ q.tickets) : t.outcome ≠ none := by
  rcases (mirrors.tickets t member).2 with ⟨known, shown⟩ | ⟨_, cancelled⟩
  · obtain ⟨_, history⟩ := mirrors.history
    have items : s.items = [] := List.forall₂_nil_left_iff.mp (mirrors.unmanned.2 ▸ mirrors.items)
    obtain ⟨outcome, told⟩ :=
      history.placed.told_of_idle items mirrors.callers mirrors.loops known
    rw [shown, history.answered.heard _ outcome told (mirrors.held _)]
    simp
  · simp [cancelled]

theorem Rests.outcome_of_idle {q : Queue α} (rests : Rests q) (idle : q.draining = false)
    {t : Ticket α} (member : t ∈ q.tickets) : t.outcome ≠ none := by
  cases rests with
  | away s mirrors running => exact mirrors.outcome_of_away member
  | popping s mirrors running => exact absurd idle (by simp [mirrors.manned nofun])
  | busy s r n bears mirrors running => exact absurd idle (by simp [mirrors.manned nofun])

/-- After any script the queue mirrors what some run of callers and drain loops leaves, and each of
its tickets shows what that run told it. -/
theorem script_rests (steps : List (Queue.Step α)) :
    Rests (steps.foldl (fun q e => (q.apply e).view.2) ({} : Queue α)) := by
  have rests : ∀ q : Queue α, Rests q → Rests (steps.foldl (fun q e => (q.apply e).view.2) q) := by
    induction steps with
    | nil => exact fun q rests => rests
    | cons e steps ih => exact fun q rests => ih _ (rests.apply e).view
  exact rests {} (.away {} mirrors_empty rfl)

/-- A script that leaves the queue idle leaves nobody waiting for a ticket. -/
theorem script_resolved (steps : List (Queue.Step α)) (e : Queue.Step α) :
    let q := steps.foldl (fun q e => (q.apply e).view.2) ({} : Queue α)
    (q.apply e).draining = false → (q.apply e).view.1.waiting = 0 := by
  intro q idle
  have rests : Rests (q.apply e) := (script_rests steps).apply e
  refine List.length_eq_zero_iff.mpr (List.filter_eq_nil_iff.mpr fun t member => ?_)
  simpa using rests.outcome_of_idle idle member

end Overseer.Queue
