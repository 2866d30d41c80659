import Overseer.Proofs.Supervisor.Parting

/-!
Starts and stops that the table does not permit. One that is performed does nothing but warn, and
its caller is answered as soon as it was performed; so a run in which some more of them are
performed is the run without them, whatever else happens in it.
-/
namespace Overseer.Supervisor

def Operation.trigger? : Operation → Option Trigger
  | .start _ => some .start
  | .stop _ => some .stop
  | _ => none

/-- A start or a stop that the table does not permit. -/
def refuses (s : Supervisor) (op : Operation) : Bool := op.trigger?.any fun t => !s.permits t

variable {s : Supervisor} {op : Operation}

def Ignores (s : Supervisor) (op : Operation) : Prop :=
  ∃ t, op.trigger? = some t ∧ s.perform op = (s, [.warn (.notPermitted s.state t)])

/-- Between two operations no cooperative stop is left that a refused one could wait for. -/
theorem ignores_of_refused (settled : s.cooperativeStop = none) (refused : s.refuses op = true) :
    s.Ignores op := by
  cases op with
  | start launched =>
    have live : s.state.isLive = true := by
      simpa [refuses, Operation.trigger?, permits_start] using refused
    exact ⟨.start, rfl, start_of_isLive live launched⟩
  | stop timeout =>
    have idle : s.state ≠ .running := by
      simpa [refuses, Operation.trigger?, permits_stop] using refused
    exact ⟨.stop, rfl, stop_of_refused idle settled timeout⟩
  | exited pid code => simp [refuses, Operation.trigger?] at refused
  | escalate pid => simp [refuses, Operation.trigger?] at refused

theorem launches?_of_refused (refused : s.refuses op = true) : s.launches? op = none := by
  cases op with
  | start launched =>
    have forbidden : s.permits .start = false := by
      simpa [refuses, Operation.trigger?] using refused
    cases launched <;> simp [launches?, forbidden]
  | _ => rfl

/-- Whatever was begun by a stop is handed over with it. -/
theorem cooperativeStop_perform (settled : s.cooperativeStop = none) (op : Operation) :
    (s.perform op).1.cooperativeStop = none := by
  cases op with
  | start launched =>
    cases live : s.state.isLive with
    | true => rwa [perform, start_of_isLive live]
    | false =>
      cases launched with
      | ok pid => rwa [perform, start_ok live]
      | error cause => rwa [perform, start_error live]
  | stop timeout => rfl
  | exited pid code =>
    simp only [perform, reportExit, fire]
    repeat' split
    all_goals exact settled
  | escalate pid =>
    simp only [perform, escalate, kill]
    repeat' split
    all_goals exact settled

/-- What is done, but for the warnings of what is refused. -/
def heeded (effects : List Effect) : List Effect :=
  effects.filter fun
    | .warn (.notPermitted _ _) => false
    | _ => true

theorem heeded_append (earlier later : List Effect) :
    heeded (earlier ++ later) = heeded earlier ++ heeded later := by
  rw [heeded, List.filter_append, heeded, heeded]

/-- The events of the second run are those of the first, with starts and stops in between that are
refused where they are performed. -/
inductive Padded : Run → List Event → List Event → Prop where
  | nil (r : Run) : Padded r [] []
  | keep {r : Run} (e : Event) {events padded : List Event}
      (rest : Padded (r.advance e) events padded) : Padded r (e :: events) (e :: padded)
  | insert {r : Run} {op : Operation} (refused : r.supervisor.refuses op = true)
      {events padded : List Event} (rest : Padded (r.advance (.perform op)) events padded) :
      Padded r events (.perform op :: padded)

namespace Run

/-- Two runs that differ in nothing but warnings of what is refused. -/
structure Agrees (r u : Run) : Prop where
  supervisor : r.supervisor = u.supervisor
  unreported : r.unreported = u.unreported
  heeded : heeded r.effects = heeded u.effects

variable {r u : Run}

theorem Agrees.advance (agrees : r.Agrees u) (e : Event) : (r.advance e).Agrees (u.advance e) := by
  obtain ⟨supervisor, unreported, heeded⟩ := agrees
  cases e with
  | perform op =>
    refine ⟨congrArg (fun s => (s.perform op).1) supervisor, ?_, ?_⟩
    · cases op with
      | start launched => cases launched <;> simp [Run.advance, unreportedAfter, *]
      | _ => simp [Run.advance, unreportedAfter, unreported]
    · simp only [Run.advance, heeded_append, heeded, supervisor]
  | collect pid => exact ⟨congrArg (·.collect pid) supervisor, unreported, heeded⟩

/-- A refused operation may be performed in one of two runs only. -/
theorem Agrees.insert (agrees : r.Agrees u) (settled : r.supervisor.cooperativeStop = none)
    {op : Operation} (refused : r.supervisor.refuses op = true) :
    (r.advance (.perform op)).Agrees u := by
  obtain ⟨t, trigger, ignored⟩ := ignores_of_refused settled refused
  have unreported : r.unreportedAfter op = r.unreported := by
    cases op with
    | start launched =>
      have forbidden : r.supervisor.permits .start = false := by
        simpa [refuses, Operation.trigger?] using refused
      cases launched <;> simp [unreportedAfter, forbidden]
    | stop timeout => rfl
    | exited pid code => simp [Operation.trigger?] at trigger
    | escalate pid => rfl
  refine ⟨?_, unreported.trans agrees.unreported, ?_⟩
  · simp only [Run.advance, ignored]
    exact agrees.supervisor
  · simp only [Run.advance, ignored, heeded_append, agrees.heeded]
    simp [Supervisor.heeded]

theorem cooperativeStop_advance (settled : r.supervisor.cooperativeStop = none) (e : Event) :
    (r.advance e).supervisor.cooperativeStop = none := by
  cases e with
  | perform op => exact cooperativeStop_perform settled op
  | collect pid => exact settled

theorem admits_of_refused {op : Operation} (refused : r.supervisor.refuses op = true) :
    r.admits (.perform op) = true := by
  cases op with
  | exited pid code => simp [refuses, Operation.trigger?] at refused
  | _ => rfl

/-- The induction is on how the runs come about; the run without the refused operations lags behind
and agrees all the while. -/
theorem Agrees.execute (agrees : r.Agrees u) (settled : r.supervisor.cooperativeStop = none)
    {events padded : List Event} (pads : Padded r events padded) :
    r.admitsAll padded = u.admitsAll events ∧ (r.execute padded).Agrees (u.execute events) := by
  induction pads generalizing u with
  | nil => exact ⟨rfl, agrees⟩
  | keep e rest ih =>
    obtain ⟨admitted, after⟩ := ih (agrees.advance e) (cooperativeStop_advance settled e)
    exact ⟨congrArg₂ and (admits_congr agrees.unreported e) admitted, after⟩
  | insert refused rest ih =>
    obtain ⟨admitted, after⟩ :=
      ih (agrees.insert settled refused) (cooperativeStop_advance settled _)
    refine ⟨?_, after⟩
    rw [admitsAll, admits_of_refused refused, admitted, Bool.true_and]

end Run

namespace Estate

variable {e f : Estate} {job : Job}

theorem settled_kill (settled : e.supervisor.cooperativeStop = none) :
    e.kill.supervisor.cooperativeStop = none := by
  rwa [kill, drop_fst]

theorem settled_move (settled : e.supervisor.cooperativeStop = none) (ev : Event) :
    (e.move ev).supervisor.cooperativeStop = none := by
  cases ev with
  | strip =>
    simp only [move, strip]
    split
    · exact settled_kill settled
    · exact settled
  | perform launched =>
    simp only [move, perform]
    split
    · exact settled
    · exact cooperativeStop_perform settled _
  | _ =>
    simp only [move, call, part, take, complete, tell, escalate, wake, resume, exit, collect, look,
      report]
    repeat' split
    all_goals exact settled

theorem settled_execute (settings : Settings) (events : List Event) :
    ((fresh settings).execute events).supervisor.cooperativeStop = none := by
  refine execute_induction (motive := fun e => e.supervisor.cooperativeStop = none) rfl ?_ events
  intro e ev settled
  unfold advance settle
  split
  · exact settled_move settled ev
  · exact settled_kill (settled_move settled ev)

/-- What a step makes of the callers: of the operation at hand, of the tickets, and of the calls
that cooperative stops are begun for. -/
inductive Serves (e f : Estate) : Prop where
  | idle (executing : f.executing = e.executing) (told : f.told = e.told)
      (calls : ∀ x ∈ f.errands, ∃ y ∈ e.errands, y.call = x.call)
  | cancel (job : Job) (waiting : job ∈ e.pending) (free : e.executing = none)
      (executing : f.executing = none)
      (told : f.told = Function.update e.told job.ticket (some (.error .cancelled)))
      (errands : f.errands = e.errands)
  | take (job : Job) (free : e.executing = none) (executing : f.executing = some ⟨job, false⟩)
      (told : f.told = e.told) (errands : f.errands = e.errands)
  | perform (job : Job) (busy : e.executing = some ⟨job, false⟩)
      (executing : f.executing = some ⟨job, true⟩) (told : f.told = e.told)
      (calls : ∀ x ∈ f.errands, x ∈ e.errands ∨ x.call = job.ticket)
  | complete (job : Job) (busy : e.executing = some ⟨job, true⟩) (executing : f.executing = none)
      (told : f.told = Function.update e.told job.ticket (some (.ok ())))
      (errands : f.errands = e.errands)

theorem Serves.refl (e : Estate) : e.Serves e := .idle rfl rfl fun x member => ⟨x, member, rfl⟩

theorem resume_executing (e : Estate) (index call : Nat) (stage : Option Errand.Stage) :
    (e.resume index call stage).executing = e.executing := by
  cases stage <;> rfl

theorem resume_told (e : Estate) (index call : Nat) (stage : Option Errand.Stage) :
    (e.resume index call stage).told = e.told := by
  cases stage <;> rfl

theorem calls_resume {index : Nat} {x : Errand} (found : e.errands[index]? = some x)
    (stage : Option Errand.Stage) :
    ∀ y ∈ (e.resume index x.call stage).errands, ∃ z ∈ e.errands, z.call = y.call := by
  intro y member
  cases stage with
  | none => exact ⟨y, List.mem_of_mem_eraseIdx member, rfl⟩
  | some stage =>
    rcases List.mem_or_eq_of_mem_set member with old | rfl
    · exact ⟨y, old, rfl⟩
    · exact ⟨x, List.mem_of_getElem? found, rfl⟩

theorem serves_move (e : Estate) (ev : Event) : e.Serves (e.move ev) := by
  cases ev with
  | take =>
    simp only [move, Estate.take]
    split
    next job rest free queue =>
      split
      · exact .cancel job (by simp [pending, queue]) free free rfl rfl
      · exact .take job free rfl rfl rfl
    next => exact .refl e
  | perform launched =>
    simp only [move, Estate.perform]
    split
    next => exact .refl e
    next job busy =>
      refine .perform job (unperformed?_eq_some_iff.mp busy) rfl rfl fun x member => ?_
      rcases List.mem_append.mp member with old | new
      · exact .inl old
      · obtain ⟨stop, _, rfl⟩ := List.mem_map.mp new
        exact .inr rfl
  | complete =>
    simp only [move, Estate.complete]
    split
    next job busy => exact .complete job busy rfl rfl rfl
    next => exact .refl e
  | tell index ev =>
    simp only [move, tell]
    split
    next call s found =>
      exact .idle (e.resume_executing _ _ _) (e.resume_told _ _ _) (calls_resume found _)
    next => exact .refl e
  | escalate index =>
    simp only [move, escalate]
    split
    next call pid found =>
      exact .idle rfl rfl (calls_resume (e := e.put (.escalate pid)) found _)
    next => exact .refl e
  | wake index =>
    simp only [move, wake]
    split
    next call ticket found =>
      split
      · exact .idle rfl rfl (calls_resume found none)
      · exact .refl e
    next => exact .refl e
  | _ =>
    simp only [move, call, part, strip, exit, collect, look, report]
    repeat' split
    all_goals exact .idle rfl rfl fun x member => ⟨x, member, rfl⟩

theorem serves_advance (e : Estate) (ev : Event) : e.Serves (e.advance ev) := by
  have serves := e.serves_move ev
  unfold advance settle
  split
  · exact serves
  · cases serves with
    | idle executing told calls => exact .idle executing told calls
    | cancel job waiting free executing told errands =>
      exact .cancel job waiting free executing told errands
    | take job free executing told errands => exact .take job free executing told errands
    | perform job busy executing told calls => exact .perform job busy executing told calls
    | complete job busy executing told errands => exact .complete job busy executing told errands

/-- Every cooperative stop was begun for a call whose operation was performed. -/
def Called (e : Estate) : Prop :=
  ∀ x ∈ e.errands, (e.told x.call).isSome = true ∨
    ∃ job, e.executing = some ⟨job, true⟩ ∧ job.ticket = x.call

theorem isSome_update {told : Nat → Option (Except QueueError Unit)} {n : Nat}
    (answered : (told n).isSome = true) (ticket : Nat) (a : Except QueueError Unit) :
    (Function.update told ticket (some a) n).isSome = true := by
  by_cases same : n = ticket
  · simp [same]
  · rwa [Function.update_of_ne same]

theorem Called.advance (called : e.Called) (ev : Event) : (e.advance ev).Called := by
  intro x member
  cases e.serves_advance ev with
  | idle executing told calls =>
    obtain ⟨y, old, same⟩ := calls x member
    rw [executing, told, ← same]
    exact called y old
  | cancel job waiting free executing told errands =>
    rw [errands] at member
    rcases called x member with answered | ⟨_, busy, _⟩
    · rw [told]
      exact .inl (isSome_update answered _ _)
    · simp [free] at busy
  | take job free executing told errands =>
    rw [errands] at member
    rcases called x member with answered | ⟨_, busy, _⟩
    · rw [told]
      exact .inl answered
    · simp [free] at busy
  | perform job busy executing told calls =>
    rcases calls x member with old | new
    · rcases called x old with answered | ⟨_, performed, _⟩
      · rw [told]
        exact .inl answered
      · simp [busy] at performed
    · exact .inr ⟨job, executing, new.symm⟩
  | complete job busy executing told errands =>
    rw [errands] at member
    rw [told]
    rcases called x member with answered | ⟨other, performed, same⟩
    · exact .inl (isSome_update answered _ _)
    · obtain rfl : job = other := by simpa [busy] using performed
      exact .inl (by simp [same])

theorem called_execute (settings : Settings) (events : List Event) :
    ((fresh settings).execute events).Called :=
  execute_induction (by simp [Called, fresh]) (fun _ ev called => called.advance ev) events

/-- The call for a job that was performed waits for its answer at most, and for no stop. -/
structure Unburdened (e : Estate) (job : Job) : Prop where
  calls : ∀ x ∈ e.errands, x.call ≠ job.ticket
  served : e.executing = some ⟨job, true⟩ ∨ e.told job.ticket = some (.ok ())

namespace Unburdened

theorem ne_of_pending (sound : e.Sound) (told : e.told job.ticket = some (.ok ())) {other : Job}
    (waiting : other ∈ e.pending) : job.ticket ≠ other.ticket := by
  intro same
  have untold := (sound.numbered.untold other waiting).2
  simp [← same, told] at untold

theorem advance (unburdened : e.Unburdened job) (sound : e.Sound) (ev : Event) :
    (e.advance ev).Unburdened job := by
  obtain ⟨calls, served⟩ := unburdened
  cases e.serves_advance ev with
  | idle executing told kept =>
    refine ⟨fun x member => ?_, by rwa [executing, told]⟩
    obtain ⟨y, old, same⟩ := kept x member
    exact same ▸ calls y old
  | cancel other waiting free executing told errands =>
    have answered : e.told job.ticket = some (.ok ()) := by simpa [free] using served
    have different := ne_of_pending sound answered waiting
    refine ⟨errands ▸ calls, .inr ?_⟩
    rw [told, Function.update_of_ne different, answered]
  | take other free executing told errands =>
    have answered : e.told job.ticket = some (.ok ()) := by simpa [free] using served
    exact ⟨errands ▸ calls, .inr (told ▸ answered)⟩
  | perform other busy executing told kept =>
    have answered : e.told job.ticket = some (.ok ()) := by simpa [busy] using served
    refine ⟨fun x member => ?_, .inr (told ▸ answered)⟩
    rcases kept x member with old | new
    · exact calls x old
    · rw [new]
      exact (ne_of_pending sound answered (by simp [pending, busy])).symm
  | complete other busy executing told errands =>
    refine ⟨errands ▸ calls, .inr ?_⟩
    rw [told]
    by_cases same : job.ticket = other.ticket
    · simp [same]
    · rw [Function.update_of_ne same]
      refine served.resolve_left fun performed => same ?_
      simpa [busy] using congrArg (Option.map fun x => x.job.ticket) performed.symm

theorem answer? (unburdened : e.Unburdened job) (sound : e.Sound) :
    e.answer? job.ticket = some (.ok ()) ∨
      e.executing = some ⟨job, true⟩ ∧ e.answer? job.ticket = none := by
  rcases unburdened.served with performed | told
  · have untold := (sound.numbered.untold job (by simp [pending, performed])).2
    exact .inr ⟨performed, by simp [Estate.answer?, untold]⟩
  · have none : (e.errands.any fun x => x.call = job.ticket) = false := by
      simpa using unburdened.calls
    exact .inl (by simp [Estate.answer?, told, none])

end Unburdened

theorem perform_of_refused (busy : e.unperformed? = some job) {launched : Except SystemError UInt32}
    (settled : e.supervisor.cooperativeStop = none)
    (refused : e.supervisor.refuses (job.request.operation launched) = true) :
    e.advance (.perform launched) =
      { e with
        executing := some ⟨job, true⟩
        log := e.log ++ [⟨e.supervisor, job.request.operation launched⟩] } := by
  obtain ⟨t, _, ignored⟩ := ignores_of_refused settled refused
  set d : Deed := ⟨e.supervisor, job.request.operation launched⟩ with deed
  have after : d.after = e.supervisor := congrArg Prod.fst ignored
  have noLaunch : d.launched? = none := launches?_of_refused refused
  have noStop : d.begun = [] := by
    rw [Deed.begun, deed, ignored]
    rfl
  have asksNobody : d.asks = false := by
    rw [Deed.asks, noLaunch, after, deed, ignored]
    cases e.supervisor.handle <;> rfl
  have performed : e.move (.perform launched) =
      { e with executing := some ⟨job, true⟩, log := e.log ++ [d] } := by
    simp only [move, perform, busy]
    rw [← deed, after, noLaunch, noStop, asksNobody]
    simp
  rw [advance, performed, settle, if_pos (by simp [isHeld])]

/-- What becomes of a request whose operation is refused as it gets the lock. -/
structure Ignored (e : Estate) (job : Job) (launched : Except SystemError UInt32) : Prop where
  supervisor : (e.advance (.perform launched)).supervisor = e.supervisor
  wards : (e.advance (.perform launched)).wards = e.wards
  errands : (e.advance (.perform launched)).errands = e.errands
  changes : (e.advance (.perform launched)).changes = e.changes
  /-- The call is answered as the operation is completed. -/
  completed : ((e.advance (.perform launched)).advance .complete).answer? job.ticket =
    some (.ok ())
  /-- Until then it waits for its own operation, and nothing that happens later changes that. -/
  answer : ∀ later, let f := (e.advance (.perform launched)).execute later
    f.answer? job.ticket = some (.ok ()) ∨
      f.executing = some ⟨job, true⟩ ∧ f.answer? job.ticket = none

theorem Unburdened.execute (unburdened : e.Unburdened job) (sound : e.Sound)
    (events : List Event) : (e.execute events).Unburdened job ∧ (e.execute events).Sound :=
  execute_induction (motive := fun f => f.Unburdened job ∧ f.Sound) ⟨unburdened, sound⟩
    (fun _ ev kept => ⟨kept.1.advance kept.2 ev, kept.2.advance ev⟩) events

/-- A call whose operation waits for the lock has no stop to wait for yet. -/
theorem Called.unburdened (called : e.Called) (sound : e.Sound) (busy : e.unperformed? = some job)
    {launched : Except SystemError UInt32} (settled : e.supervisor.cooperativeStop = none)
    (refused : e.supervisor.refuses (job.request.operation launched) = true) :
    (e.advance (.perform launched)).Unburdened job := by
  have executing := unperformed?_eq_some_iff.mp busy
  have untold := (sound.numbered.untold job (by simp [pending, executing])).2
  rw [perform_of_refused busy settled refused]
  refine ⟨fun x member same => ?_, .inl rfl⟩
  rcases called x member with answered | ⟨_, performed, _⟩
  · simp [same, untold] at answered
  · simp [executing] at performed

theorem ignored_of_refused (called : e.Called) (sound : e.Sound) (busy : e.unperformed? = some job)
    {launched : Except SystemError UInt32} (settled : e.supervisor.cooperativeStop = none)
    (refused : e.supervisor.refuses (job.request.operation launched) = true) :
    e.Ignored job launched := by
  have performed := perform_of_refused busy settled refused
  have unburdened := called.unburdened sound busy settled refused
  have kept := fun later => unburdened.execute (sound.advance (.perform launched)) later
  have answer := fun later => (kept later).1.answer? (kept later).2
  refine ⟨by rw [performed], by rw [performed], by rw [performed], ?_, ?_, answer⟩
  · obtain ⟨t, _, ignored⟩ := ignores_of_refused settled refused
    rw [performed, changes, changes, List.flatMap_append, List.flatMap_singleton, Deed.changes,
      ignored]
    exact List.append_nil _
  · refine (answer [.complete]).resolve_right ?_
    rintro ⟨executing, _⟩
    have free : ((e.advance (.perform launched)).advance .complete).executing = none := by
      rw [performed, advance, settle_executing]
      rfl
    rw [execute, execute, free] at executing
    contradiction

end Estate

/-- A start or a stop that the table does not permit leaves no trace, at whatever time it gets the
lock: but for a warning all is as if it had never been asked for, and whoever asked waits for no
stop. -/
theorem refusals_vanish (settings : Settings) :
    (∀ events op, let s := ((Estate.fresh settings).execute events).supervisor
      s.refuses op = true → s.Ignores op) ∧
    (∀ events job launched, let e := (Estate.fresh settings).execute events
      e.unperformed? = some job →
        e.supervisor.refuses (job.request.operation launched) = true → e.Ignored job launched) ∧
    ∀ events padded, Padded (Run.fresh settings) events padded →
      (Run.fresh settings).admitsAll padded = (Run.fresh settings).admitsAll events ∧
        ((Run.fresh settings).execute padded).Agrees ((Run.fresh settings).execute events) := by
  refine ⟨fun events op refused => ?_, fun events job launched busy refused => ?_,
    fun events padded pads => ?_⟩
  · exact ignores_of_refused (Estate.settled_execute settings events) refused
  · exact Estate.ignored_of_refused (Estate.called_execute settings events)
      (Estate.sound_execute settings events) busy (Estate.settled_execute settings events) refused
  · exact Run.Agrees.execute ⟨rfl, rfl, rfl⟩ rfl pads

/-- A stop in the midst of another one, which it does not wait for, and a start and a stop that are
both too late. -/
theorem refusals_vanish_stopping :
    let settings : Settings := ⟨"", "/bin/server", "", .empty, false⟩
    let patient : Option Duration := some (.ofSeconds 5 (by decide))
    let e := (Estate.fresh settings).execute [.start, .take, .perform (.ok 7), .complete,
      .stop patient, .take, .perform (.ok 0), .complete, .stop none, .take]
    let events : List Event := [.perform (.start (.ok 7)), .perform (.stop patient),
      .perform (.escalate 7), .perform (.exited 7 0)]
    let padded : List Event := [.perform (.stop none), .perform (.start (.ok 7)),
      .perform (.start (.ok 8)), .perform (.stop patient), .perform (.stop none),
      .perform (.start (.error (.errno ⟨2⟩))), .perform (.escalate 7), .perform (.exited 7 0),
      .perform (.stop patient)]
    e.supervisor.Ignores (.stop none) ∧ e.Ignored ⟨2, .stop none⟩ (.ok 0) ∧
      ((Run.fresh settings).execute padded).Agrees ((Run.fresh settings).execute events) := by
  refine ⟨(refusals_vanish _).1 _ _ (by decide +kernel),
    (refusals_vanish _).2.1 _ _ _ (by decide +kernel) (by decide +kernel),
    ((refusals_vanish _).2.2 _ _ ?_).2⟩
  exact .insert (by decide) (.keep _ (.insert (by decide) (.keep _ (.insert (by decide)
    (.insert (by decide) (.keep _ (.keep _ (.insert (by decide) (.nil _)))))))))

end Overseer.Supervisor
