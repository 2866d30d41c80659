import Overseer.Proofs.Supervisor.Estate

/-!
What is left of a supervisor once its owner began to part with it. Whatever was begun by then may
come to its end, and nothing else begins, in whichever order the steps of the owner fall between
those of all others.
-/
namespace Overseer.Supervisor

structure Face where
  state : State
  info : Option ProcessInfo
  killed : Bool
  startError : Option StartError
  deriving DecidableEq, Repr

def face (s : Supervisor) : Face := ⟨s.state, s.info, s.killed, s.startError⟩

theorem face_drop (s : Supervisor) : s.drop.1.face = s.face := by
  rw [drop_fst]
  rfl

namespace Estate

def changes (e : Estate) : List Change := e.log.flatMap Deed.changes

/-- A step that begins nothing, ends nothing, and answers nobody. -/
structure Idles (e f : Estate) : Prop where
  log : f.log = e.log
  face : f.supervisor.face = e.supervisor.face
  begun : f.begun = e.begun
  executing : f.executing = e.executing
  told : f.told = e.told
  queue : e.queue ⊆ f.queue
  disposed : e.isDisposed = true → f.isDisposed = true

theorem Idles.refl (e : Estate) : e.Idles e :=
  ⟨rfl, rfl, rfl, rfl, rfl, List.Subset.refl _, id⟩

theorem idles_put (e : Estate) (r : Request) : e.Idles (e.put r) :=
  ⟨rfl, rfl, rfl, rfl, rfl, List.subset_append_left _ _, id⟩

theorem idles_part (e : Estate) {source target : Ownership} (parts : target ≠ .held) :
    e.Idles (e.part source target) := by
  unfold part
  split
  · exact ⟨rfl, rfl, rfl, rfl, rfl, List.Subset.refl _, fun _ => by simpa [isDisposed] using parts⟩
  · exact .refl e

theorem idles_kill (e : Estate) : e.Idles e.kill :=
  ⟨rfl, face_drop _, rfl, rfl, rfl, List.Subset.refl _, id⟩

theorem idles_settle (e : Estate) : e.Idles e.settle := by
  unfold settle
  split
  · exact .refl e
  · exact e.idles_kill

theorem idles_resume (e : Estate) (index call : Nat) (stage : Option Errand.Stage) :
    e.Idles (e.resume index call stage) := by
  cases stage <;> exact ⟨rfl, rfl, rfl, rfl, rfl, List.Subset.refl _, id⟩

def Event.isDraining : Event → Bool
  | .take | .perform _ | .complete => true
  | _ => false

theorem idles_move (e : Estate) {ev : Event} (other : ev.isDraining = false) :
    e.Idles (e.move ev) := by
  cases ev with
  | start | stop timeout =>
    simp only [move, call]
    split
    · exact .refl e
    · exact e.idles_put _
  | dispose | announce | release => exact e.idles_part (by decide)
  | strip =>
    simp only [move, strip]
    split
    · exact ⟨rfl, face_drop _, rfl, rfl, rfl, List.Subset.refl _, fun _ => rfl⟩
    · exact .refl e
  | take | perform launched | complete => simp [Event.isDraining] at other
  | tell index ev =>
    simp only [move, tell]
    split
    · exact e.idles_resume _ _ _
    · exact .refl e
  | escalate index =>
    simp only [move, escalate]
    split
    · exact ⟨rfl, rfl, rfl, rfl, rfl, List.subset_append_left _ _, id⟩
    · exact .refl e
  | wake index =>
    simp only [move, wake]
    repeat' split
    · exact e.idles_resume _ _ _
    all_goals exact .refl e
  | exit index code =>
    simp only [move, exit]
    repeat' split
    all_goals exact ⟨rfl, rfl, rfl, rfl, rfl, List.Subset.refl _, id⟩
  | collect index =>
    simp only [move, collect]
    repeat' split
    all_goals exact ⟨rfl, rfl, rfl, rfl, rfl, List.Subset.refl _, id⟩
  | look index =>
    simp only [move, look]
    repeat' split
    all_goals exact ⟨rfl, rfl, rfl, rfl, rfl, List.Subset.refl _, id⟩
  | report index =>
    simp only [move, report]
    repeat' split
    · exact ⟨rfl, rfl, rfl, rfl, rfl, List.subset_append_left _ _, id⟩
    all_goals exact .refl e
  | elapse ms => exact ⟨rfl, rfl, rfl, rfl, rfl, List.Subset.refl _, id⟩

/-- What may still happen to the supervisor: nothing, or what the operation that waited for the lock
does. -/
inductive Lapse (e f : Estate) : Prop where
  | still (log : f.log = e.log) (face : f.supervisor.face = e.supervisor.face)
      (same : f.unperformed? = e.unperformed?)
  | last (job : Job) (busy : e.unperformed? = some job) (free : f.unperformed? = none)
      (launched : Except SystemError UInt32) (d : Deed)
      (operation : d.operation = job.request.operation launched)
      (before : d.before.face = e.supervisor.face) (log : f.log = e.log ++ [d])
      (after : f.supervisor.face = d.after.face)

structure Frozen (e f : Estate) : Prop where
  disposed : f.isDisposed = true
  begun : f.begun = e.begun
  lapse : Lapse e f
  told : ∀ job ∈ e.queue, f.told job.ticket = some (.error .cancelled) ∨
    job ∈ f.queue ∧ f.told job.ticket = none

theorem Lapse.congr {e f g : Estate} (lapse : Lapse e f) (log : g.log = f.log)
    (face : g.supervisor.face = f.supervisor.face) (same : g.unperformed? = f.unperformed?) :
    Lapse e g := by
  cases lapse with
  | still log' face' same' => exact .still (log.trans log') (face.trans face') (same.trans same')
  | last job busy free launched d operation before log' after =>
    exact .last job busy (same.trans free) launched d operation before (log.trans log')
      (face.trans after)

theorem unperformed?_congr {e f : Estate} (same : f.executing = e.executing) :
    f.unperformed? = e.unperformed? := by
  rw [unperformed?, same, unperformed?]

namespace Frozen

variable {e f : Estate}

theorem idles (frozen : Frozen e f) {g : Estate} (idles : f.Idles g) : Frozen e g where
  disposed := idles.disposed frozen.disposed
  begun := idles.begun.trans frozen.begun
  lapse := frozen.lapse.congr idles.log idles.face (unperformed?_congr idles.executing)
  told job member := by
    rw [idles.told]
    exact (frozen.told job member).imp_right (And.imp_left (idles.queue ·))

theorem take (frozen : Frozen e f) (sound : f.Sound) : Frozen e f.take := by
  unfold Estate.take
  split
  next job rest free queue =>
    rw [if_pos frozen.disposed]
    refine ⟨frozen.disposed, frozen.begun, frozen.lapse.congr rfl rfl rfl, ?_⟩
    · intro other member
      have numbered := sound.numbered.nodup
      rw [pending, free, queue] at numbered
      rcases frozen.told other member with told | ⟨waiting, untold⟩
      · refine .inl ?_
        by_cases same : other.ticket = job.ticket
        · simp [answer, same]
        · simpa [answer, Function.update_of_ne same] using told
      · rw [queue] at waiting
        rcases List.mem_cons.mp waiting with rfl | later
        · exact .inl (by simp [answer])
        · have different : other.ticket ≠ job.ticket := fun same =>
            (List.nodup_cons.mp numbered).1 (same ▸ List.mem_map_of_mem later)
          exact .inr ⟨later, by simpa [answer, Function.update_of_ne different] using untold⟩
  next => exact frozen

theorem complete (frozen : Frozen e f) (sound : f.Sound) : Frozen e f.complete := by
  unfold Estate.complete
  split
  next job busy =>
    have numbered := sound.numbered
    rw [pending, busy] at numbered
    have unperformed : f.unperformed? = none := by simp [unperformed?, busy]
    refine ⟨frozen.disposed, frozen.begun, frozen.lapse.congr rfl rfl unperformed.symm, ?_⟩
    · intro other member
      have kept := frozen.told other member
      have different : other.ticket ≠ job.ticket := by
        intro same
        rcases kept with told | ⟨waiting, _⟩
        · have untold := (numbered.untold job List.mem_cons_self).2
          simp [← same, told] at untold
        · exact (List.nodup_cons.mp numbered.nodup).1 (same ▸ List.mem_map_of_mem waiting)
      simpa [answer, Function.update_of_ne different] using kept
  next => exact frozen

theorem perform (frozen : Frozen e f) (launched : Except SystemError UInt32) :
    Frozen e (f.perform launched) := by
  unfold Estate.perform
  split
  next => exact frozen
  next job busy =>
    refine ⟨frozen.disposed, frozen.begun, ?_, frozen.told⟩
    cases frozen.lapse with
    | still log face same =>
      exact .last job (same.symm.trans busy) rfl launched
        ⟨f.supervisor, job.request.operation launched⟩ rfl face (congrArg (· ++ _) log) rfl
    | last job busy' free => simp [free] at busy

theorem advance (frozen : Frozen e f) (sound : f.Sound) (ev : Event) :
    Frozen e (f.advance ev) := by
  refine Frozen.idles ?_ (f.move ev).idles_settle
  cases ev with
  | take => exact frozen.take sound
  | perform launched => exact frozen.perform launched
  | complete => exact frozen.complete sound
  | _ => exact frozen.idles (f.idles_move rfl)

end Frozen

theorem Frozen.refl {e : Estate} (sound : e.Sound) (disposed : e.isDisposed = true) :
    Frozen e e where
  disposed := disposed
  begun := rfl
  lapse := .still rfl rfl rfl
  told job member :=
    .inr ⟨member, (sound.numbered.untold job (List.mem_append_right _ member)).2⟩

theorem Frozen.execute {e f : Estate} (frozen : Frozen e f) (sound : f.Sound)
    (events : List Event) : Frozen e (f.execute events) ∧ (f.execute events).Sound :=
  execute_induction (motive := fun g => Frozen e g ∧ g.Sound) ⟨frozen, sound⟩
    (fun _ ev kept => ⟨kept.1.advance kept.2 ev, kept.2.advance ev⟩) events

theorem isDisposed_dispose (e : Estate) : (e.advance .dispose).isDisposed = true := by
  refine (e.move .dispose).idles_settle.disposed ?_
  rw [move, part, isDisposed]
  split
  · rfl
  next parting => simpa using parting

@[simp] theorem settle_queue (e : Estate) : e.settle.queue = e.queue := by
  unfold settle
  split <;> rfl

@[simp] theorem settle_executing (e : Estate) : e.settle.executing = e.executing :=
  e.idles_settle.executing

/-- Without an operation at hand all that is left in the queue is cancelled. -/
theorem queue_takes {e : Estate} (disposed : e.isDisposed = true) (free : e.executing = none) :
    (e.execute (List.replicate e.queue.length .take)).queue = [] := by
  induction queue : e.queue generalizing e with
  | nil => simpa [execute] using queue
  | cons job rest ih =>
    have taken : e.move .take = { e with queue := rest }.answer job.ticket (.error .cancelled) := by
      simp [move, take, free, queue, disposed]
    have left : (e.advance .take).queue = rest := by
      rw [advance, settle_queue, taken]
      rfl
    rw [List.length_cons, List.replicate_succ, execute]
    refine ih ?_ ?_ left
    · refine (e.move .take).idles_settle.disposed ?_
      rw [taken]
      exact disposed
    · rw [advance, settle_executing, taken]
      exact free

theorem performed_of_perform (e : Estate) (launched : Except SystemError UInt32) {x : Executing}
    (busy : (e.perform launched).executing = some x) : x.performed = true := by
  revert busy
  unfold perform
  split
  next idle =>
    intro busy
    simpa [unperformed?, busy] using idle
  next =>
    rintro ⟨⟩
    rfl

theorem executing_complete {e : Estate}
    (performed : ∀ x, e.executing = some x → x.performed = true) :
    e.complete.executing = none := by
  unfold complete
  split
  · rfl
  next other =>
    cases busy : e.executing with
    | none => rfl
    | some x =>
      obtain ⟨job, _⟩ := x
      obtain rfl : _ = true := performed _ busy
      exact absurd busy (other job)

/-- The drain loop by itself leaves nothing in the queue. -/
theorem drains {e : Estate} (sound : e.Sound) (disposed : e.isDisposed = true) :
    ∃ rest, (∀ ev ∈ rest, ev.isDraining = true) ∧ (e.execute rest).queue = [] := by
  let done : Estate := e.execute [.perform (.ok 0), .complete]
  have still : done.isDisposed = true :=
    ((Frozen.refl sound disposed).execute sound [.perform (.ok 0), .complete]).1.disposed
  have free : done.executing = none :=
    (settle_executing _).trans (executing_complete fun x busy =>
      e.performed_of_perform (.ok 0) ((settle_executing _).symm.trans busy))
  refine ⟨[.perform (.ok 0), .complete] ++ List.replicate done.queue.length .take, ?_, ?_⟩
  · intro ev member
    rcases List.mem_append.mp member with first | later
    · rcases List.mem_pair.mp first with rfl | rfl <;> rfl
    · rw [List.eq_of_mem_replicate later]
      rfl
  · rw [execute_append]
    exact queue_takes still free

/-- What the owner has still to do to part with a supervisor, in order. -/
def left : Ownership → List Event
  | .held => [.dispose, .announce, .strip, .release]
  | .disposed => [.announce, .strip, .release]
  | .announced => [.strip, .release]
  | .stripped => [.release]
  | .gone => []

/-- Nobody but the owner has a part in parting with it. -/
def after (o : Ownership) (ev : Event) : Ownership :=
  match o, ev with
  | .held, .dispose => .disposed
  | .disposed, .announce => .announced
  | .announced, .strip => .stripped
  | .stripped, .release => .gone
  | o, _ => o

theorem owner_settle (e : Estate) : e.settle.owner = e.owner := by
  unfold settle
  split <;> rfl

theorem owner_advance (e : Estate) (ev : Event) : (e.advance ev).owner = after e.owner ev := by
  rw [advance, owner_settle]
  cases ev with
  | dispose | announce | release =>
    simp only [move, part]
    cases owner : e.owner <;> simp [owner, after]
  | strip =>
    simp only [move, strip]
    cases owner : e.owner <;> simp [owner, after]
  | start | stop timeout =>
    rw [show after e.owner _ = e.owner by cases e.owner <;> rfl]
    simp only [move, call]
    split <;> rfl
  | tell index ev =>
    rw [show after e.owner _ = e.owner by cases e.owner <;> rfl]
    simp only [move, tell]
    split
    · cases e.stageAfter _ ev <;> rfl
    · rfl
  | take | perform launched | complete | escalate index | wake index | exit index code
  | collect index | look index | report index | elapse ms =>
    rw [show after e.owner _ = e.owner by cases e.owner <;> rfl]
    simp only [move, take, perform, complete, escalate, wake, exit, collect, look, report]
    repeat' split
    all_goals rfl

theorem left_of_isDisposed {e : Estate} (disposed : e.isDisposed = true) :
    (left e.owner).Sublist [.announce, .strip, .release] := by
  cases owner : e.owner with
  | held => simp [isDisposed, owner] at disposed
  | disposed => exact List.Sublist.refl _
  | announced => exact List.sublist_append_right [Event.announce] _
  | stripped => exact List.sublist_append_right [Event.announce, .strip] _
  | gone => exact List.nil_sublist _

theorem left_after (o : Ownership) (ev : Event) : (left (after o ev)).Sublist (left o) := by
  unfold after
  split
  all_goals first | exact List.Sublist.refl _ | exact List.sublist_cons_self _ _

/-- Once the owner has done what it had still to do, it is gone, whatever fell in between. -/
theorem owner_execute {e : Estate} {later : List Event} (parts : (left e.owner).Sublist later) :
    (e.execute later).owner = .gone := by
  induction later generalizing e with
  | nil =>
    have nothing := List.sublist_nil.mp parts
    cases owner : e.owner <;> simp [left, owner] at nothing
    exact owner
  | cons ev later ih =>
    refine ih ?_
    rw [owner_advance]
    rcases List.sublist_cons_iff.mp parts with rest | ⟨rest, first, fewer⟩
    · exact (left_after e.owner ev).trans rest
    · have next : left (after e.owner ev) = rest := by
        cases owner : e.owner <;> rw [owner] at first <;> cases first <;> rfl
      rwa [next]

theorem handle_strip {e : Estate} (announced : e.owner = .announced) :
    (e.advance .strip).supervisor.handle = none := by
  have stripped : e.strip.supervisor.handle = none := by
    rw [strip, if_pos announced]
    exact handle_drop e.supervisor
  rw [advance, move, settle]
  split
  · exact stripped
  · exact handle_drop _

/-- What is certain of a supervisor `e` that was disposed of, as of the time `f` after some more
events. -/
structure Parting (e f : Estate) (later : List Event) : Prop where
  begun : f.begun = e.begun
  /-- What others see is changed by the operation at hand at most. -/
  lapse : Lapse e f
  changes : f.changes = e.changes ∨ ∃ d, f.log = e.log ++ [d] ∧ f.changes = e.changes ++ d.changes
  /-- Calls that were waiting are cancelled, and need nothing but the drain loop to be. -/
  cancelled : ∀ job ∈ e.queue, f.answer? job.ticket = some (.error .cancelled) ∨
    job ∈ f.queue ∧ f.answer? job.ticket = none
  drained : ∃ rest, (∀ ev ∈ rest, ev.isDraining = true) ∧
    ∀ job ∈ e.queue, (f.execute rest).answer? job.ticket = some (.error .cancelled)
  /-- An escalation that was begun in time does nothing once the process was taken out. -/
  escalation : f.owner.isStripped = true →
    ∀ ticket pid, f.unperformed? = some ⟨ticket, .escalate pid⟩ →
      f.supervisor.escalate pid = (f.supervisor, [])
  /-- The wards are the processes that were ever launched. -/
  wards : f.wards.map Ward.pid = (f.log.filterMap Deed.launched?).reverse
  /-- The step in which the process is taken out leaves none behind that was launched by then. -/
  taken : f.owner = .announced →
    let g := f.advance .strip
    g.owner = .stripped ∧ g.supervisor.handle = none ∧
      ∀ w ∈ g.wards, w.exit.isSome = true ∨ w.asked = true
  /-- The other steps of the drop are all that it takes for the owner to be gone. -/
  gone : [.announce, .strip, .release].Sublist later → f.owner = .gone
  accounted : f.owner = .gone → f.queue = [] → f.executing = none → f.errands = [] →
    ∀ w ∈ f.wards, w.exit.isSome = true ∨ w.asked = true

theorem answer?_of_told {e : Estate} {ticket : Nat} {err : QueueError}
    (told : e.told ticket = some (.error err)) : e.answer? ticket = some (.error err) := by
  simp [answer?, told]

/-- A supervisor that is dropped is frozen, and leaves no process behind: at whatever time its queue
is disposed of, and however the rest of the drop falls between the steps of all who hold on to it. -/
theorem drop_freezes (settings : Settings) (events later : List Event) :
    Parting (((fresh settings).execute events).advance .dispose)
      ((((fresh settings).execute events).advance .dispose).execute later) later := by
  set before := (fresh settings).execute events
  set e := before.advance .dispose
  have sound : e.Sound := (sound_execute settings events).advance .dispose
  have disposed : e.isDisposed = true := before.isDisposed_dispose
  obtain ⟨frozen, kept⟩ := (Frozen.refl sound disposed).execute sound later
  have settled : (e.execute later).IsSettled :=
    (before.move .dispose).isSettled_settle.execute later
  set f := e.execute later
  obtain ⟨rest, draining, emptied⟩ := drains kept frozen.disposed
  refine ⟨frozen.begun, frozen.lapse, ?_, ?_, ⟨rest, draining, ?_⟩, ?_, kept.launched, ?_, ?_, ?_⟩
  · cases frozen.lapse with
    | still log => exact .inl (by rw [changes, log, changes])
    | last job busy free launched d operation before log =>
      refine .inr ⟨d, log, ?_⟩
      rw [changes, log, changes, List.flatMap_append, List.flatMap_singleton]
  · intro job member
    rcases frozen.told job member with told | ⟨waiting, untold⟩
    · exact .inl (answer?_of_told told)
    · exact .inr ⟨waiting, by simp [answer?, untold]⟩
  · intro job member
    rcases (frozen.execute kept rest).1.told job member with told | ⟨waiting, _⟩
    · exact answer?_of_told told
    · simp [emptied] at waiting
  · intro stripped ticket pid waiting
    exact escalate_of_mismatch (by simp [kept.stripped stripped _ waiting])
  · intro announced g
    have stripped : g.owner = .stripped := by rw [owner_advance, announced]; rfl
    have unhandled := handle_strip announced
    refine ⟨stripped, unhandled, fun w member => ?_⟩
    simpa [Ward.isAccounted] using (kept.advance .strip).accounted_of_unhandled unhandled w member
  · intro steps
    refine owner_execute (List.Sublist.trans ?_ steps)
    exact left_of_isDisposed disposed
  · intro gone queue free errands w member
    simpa [Ward.isAccounted] using kept.accounted settled gone queue free errands w member

/-- A process runs, and a stop is waiting in the queue. The drop takes the process and kills it, and
the stop is cancelled. -/
theorem drop_freezes_running :
    let e := ((fresh ⟨"", "/bin/server", "", .empty, false⟩).execute
      [.start, .take, .perform (.ok 7), .complete, .stop none]).advance .dispose
    let later : List Event := [.announce, .strip, .release, .take]
    let f := e.execute later
    f.owner = .gone ∧ f.wards.map Ward.pid = [7] ∧
      (∀ w ∈ f.wards, w.exit.isSome = true ∨ w.asked = true) ∧
      f.answer? 1 = some (.error .cancelled) := by
  intro e later f
  have parting := drop_freezes ⟨"", "/bin/server", "", .empty, false⟩
    [.start, .take, .perform (.ok 7), .complete, .stop none] later
  have gone : f.owner = .gone := parting.gone (List.sublist_append_left _ [Event.take])
  have empty : f.queue = [] := by decide +kernel
  refine ⟨gone, by decide +kernel,
    parting.accounted gone empty (by decide +kernel) (by decide +kernel), ?_⟩
  refine (parting.cancelled ⟨1, .stop none⟩ (by decide +kernel)).resolve_right fun waiting => ?_
  rw [show _ = [] from empty] at waiting
  exact List.not_mem_nil waiting.1

/-- A start that was begun in time gets the lock when the owner is gone already. Its process dies
with the operation that launched it. -/
example :
    ((fresh ⟨"", "/bin/server", "", .empty, false⟩).execute [.start, .take, .dispose, .announce,
      .strip, .release, .perform (.ok 7), .complete]).wards = [{ pid := 7, asked := true }] := by
  decide

end Estate

end Overseer.Supervisor
