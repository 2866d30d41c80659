import Mathlib.Logic.Function.Basic
import Overseer.Failure
import Overseer.Proofs.Supervisor.Kills
import Overseer.Proofs.Supervisor.Table

/-!
A supervisor together with all who hold on to it: its owner, the requests in its queue and the
operation at hand, the reapers that report to it, and the tasks that play out its cooperative stops.
The owner parts with it in steps, and anything may happen between two of them: the queue is disposed
of, that the supervisor is dropped is announced, the process is taken out and killed, and the owner
lets go. What nobody holds on to is gone, and its process with it.

Every list of events is a run. An event that is not possible changes nothing.
-/
namespace Overseer.Supervisor

/-- A request, and the number of the ticket that was given for it. -/
structure Job where
  ticket : Nat
  request : Request
  deriving DecidableEq, Repr

/-- An operation that was taken from the queue of a supervisor that was not disposed of by then. -/
structure Executing where
  job : Job
  /-- It had the lock and did what it does. Its ticket is yet to be answered. -/
  performed : Bool := false
  deriving DecidableEq, Repr

/-- How far the owner has come in parting with the supervisor. -/
inductive Ownership where
  | held
  | disposed
  | announced
  | stripped
  | gone
  deriving DecidableEq, Repr

def Ownership.isStripped : Ownership → Bool
  | .stripped | .gone => true
  | _ => false

inductive Reaping where
  | waiting
  /-- The exit code was collected: from now on it is in vain to kill the process. -/
  | collected
  /-- The reaper found the supervisor, and its queue not disposed of. It holds on to it until the
  report is in the queue. -/
  | reporting
  | done
  deriving DecidableEq, Repr

/-- A process that was launched, with its reaper. -/
structure Ward where
  pid : UInt32
  exit : Option Int32 := none
  /-- It was asked to die: by a kill, or because its handle was dropped. -/
  asked : Bool := false
  reaping : Reaping := .waiting
  deriving DecidableEq, Repr

def Ward.isAccounted (w : Ward) : Bool := w.exit.isSome || w.asked

/-- How far a cooperative stop has come. -/
inductive Errand.Stage where
  | stopping (s : Stopping)
  /-- It is to escalate, and found the queue not disposed of. -/
  | escalating (pid : UInt32)
  | awaiting (ticket : Nat)
  deriving DecidableEq, Repr

/-- The task of a cooperative stop, and the ticket of the call that waits for it. -/
structure Errand where
  call : Nat
  stage : Errand.Stage
  deriving DecidableEq, Repr

structure Estate where
  supervisor : Supervisor
  owner : Ownership := .held
  queue : List Job := []
  executing : Option Executing := none
  /-- All processes that were launched, the last one first. -/
  wards : List Ward := []
  errands : List Errand := []
  /-- What each ticket was answered. -/
  told : Nat → Option (Except QueueError Unit) := fun _ => none
  next : Nat := 0
  now : Nat := 0
  /-- The operations that were begun, in order. -/
  begun : List Job := []
  /-- What was done so far, in order. -/
  log : List Deed := []

/-- An operation asks the process at hand to die: it has it killed, or it lets go of its handle. -/
def Deed.asks (d : Deed) : Bool :=
  d.before.handle.isSome &&
    (d.launched?.isSome || d.after.handle.isNone ||
      (d.before.perform d.operation).2.any fun
        | .kill _ delivered => delivered
        | _ => false)

/-- A process that is there stays there until its exit is reported. -/
theorem isLive_perform {s : Supervisor} {op : Operation} (noReport : op.reported? = none)
    (live : s.state.isLive = true) : (s.perform op).1.state.isLive = true := by
  cases op with
  | start launched => rwa [perform, start_of_isLive live]
  | stop timeout =>
    rw [(stop_moves timeout).state]
    rcases (State.isLive_iff _).mp live with state | state <;>
      simp [Tabular.triggers, Lifecycle.advance, Lifecycle.next_stop, state]
  | exited pid code => simp [Operation.reported?] at noReport
  | escalate pid => rwa [(escalate_moves pid).state]

theorem isLive_launch {s : Supervisor} {op : Operation} {pid : UInt32}
    (launched : s.launches? op = some pid) :
    s.state.isLive = false ∧ (s.perform op).1.state.isLive = true ∧
      (s.perform op).1.handle.isSome = true := by
  obtain ⟨rfl, idle⟩ := launches?_eq_some_iff.mp launched
  rw [perform, start_ok idle]
  exact ⟨idle, rfl, rfl⟩

theorem drop_fst (s : Supervisor) : s.drop.1 = { s with handle := none } := by
  unfold drop
  split
  next none => rw [← none]
  next => rfl

namespace Estate

inductive Event where
  | start
  | stop (timeout : Option Duration)
  /-- The four steps in which the owner parts with the supervisor. -/
  | dispose
  | announce
  | strip
  | release
  /-- The next request is taken. It is cancelled if the queue was disposed of. -/
  | take
  /-- The operation at hand gets the lock. If it launches a process, this is what the launch comes
  to. -/
  | perform (launched : Except SystemError UInt32)
  | complete
  /-- Something happens to a cooperative stop. -/
  | tell (index : Nat) (e : Stopping.Event)
  | escalate (index : Nat)
  | wake (index : Nat)
  | exit (index : Nat) (code : Int32)
  | collect (index : Nat)
  /-- A reaper looks for the supervisor that it is to report to. -/
  | look (index : Nat)
  | report (index : Nat)
  | elapse (ms : Nat)

def fresh (settings : Settings) : Estate := { supervisor := { settings } }

def isDisposed (e : Estate) : Bool := e.owner != .held

def isHeld (e : Estate) : Bool :=
  e.owner != .gone || !e.queue.isEmpty || e.executing.isSome || !e.errands.isEmpty ||
    e.wards.any fun w => w.reaping = .reporting

def put (e : Estate) (r : Request) : Estate :=
  { e with queue := e.queue ++ [⟨e.next, r⟩], next := e.next + 1 }

def call (e : Estate) (r : Request) : Estate := if e.isDisposed then e else e.put r

def part (e : Estate) (source target : Ownership) : Estate :=
  if e.owner = source then { e with owner := target } else e

def askFirst : List Ward → List Ward
  | [] => []
  | w :: ws => { w with asked := true } :: ws

def kill (e : Estate) : Estate :=
  { e with
    supervisor := e.supervisor.drop.1
    wards := if e.supervisor.handle.isSome then askFirst e.wards else e.wards }

def strip (e : Estate) : Estate :=
  if e.owner = .announced then { e.kill with owner := .stripped } else e

def answer (e : Estate) (ticket : Nat) (a : Except QueueError Unit) : Estate :=
  { e with told := Function.update e.told ticket (some a) }

def take (e : Estate) : Estate :=
  match e.executing, e.queue with
  | none, job :: rest =>
    if e.isDisposed then { e with queue := rest }.answer job.ticket (.error .cancelled)
    else { e with queue := rest, executing := some ⟨job, false⟩, begun := e.begun ++ [job] }
  | _, _ => e

def unperformed? (e : Estate) : Option Job :=
  e.executing.bind fun x => if x.performed then none else some x.job

def perform (e : Estate) (launched : Except SystemError UInt32) : Estate :=
  match e.unperformed? with
  | none => e
  | some job =>
    let d : Deed := ⟨e.supervisor, job.request.operation launched⟩
    { e with
      supervisor := d.after
      executing := some ⟨job, true⟩
      wards := (d.launched?.toList.map fun pid => { pid }) ++
        if d.asks then askFirst e.wards else e.wards
      errands := e.errands ++ d.begun.map fun stop =>
        ⟨job.ticket, .stopping ⟨stop, e.now, .asking⟩⟩
      log := e.log ++ [d] }

def complete (e : Estate) : Estate :=
  match e.executing with
  | some ⟨job, true⟩ => { e with executing := none }.answer job.ticket (.ok ())
  | _ => e

def resume (e : Estate) (index call : Nat) : Option Errand.Stage → Estate
  | none => { e with errands := e.errands.eraseIdx index }
  | some stage => { e with errands := e.errands.set index ⟨call, stage⟩ }

/-- What becomes of a cooperative stop. A queue that was disposed of takes no escalation. -/
def stageAfter (e : Estate) (s : Stopping) (ev : Stopping.Event) : Option Errand.Stage :=
  match Stopping.escalationsOf (s.step e.now ev).2 with
  | pid :: _ => if e.isDisposed then none else some (.escalating pid)
  | [] => if (s.step e.now ev).1.isFinished then none else some (.stopping (s.step e.now ev).1)

def tell (e : Estate) (index : Nat) (ev : Stopping.Event) : Estate :=
  match e.errands[index]? with
  | some ⟨call, .stopping s⟩ => e.resume index call (e.stageAfter s ev)
  | _ => e

def escalate (e : Estate) (index : Nat) : Estate :=
  match e.errands[index]? with
  | some ⟨call, .escalating pid⟩ =>
    (e.put (.escalate pid)).resume index call (some (.awaiting e.next))
  | _ => e

def wake (e : Estate) (index : Nat) : Estate :=
  match e.errands[index]? with
  | some ⟨call, .awaiting ticket⟩ =>
    if (e.told ticket).isSome then e.resume index call none else e
  | _ => e

def exit (e : Estate) (index : Nat) (code : Int32) : Estate :=
  match e.wards[index]? with
  | some w =>
    if w.exit.isSome then e else { e with wards := e.wards.set index { w with exit := some code } }
  | none => e

def collect (e : Estate) (index : Nat) : Estate :=
  match e.wards[index]? with
  | some w =>
    if w.exit.isSome ∧ w.reaping = .waiting then
      { e with
        supervisor := e.supervisor.collect w.pid
        wards := e.wards.set index { w with reaping := .collected } }
    else e
  | none => e

def look (e : Estate) (index : Nat) : Estate :=
  match e.wards[index]? with
  | some w =>
    if w.reaping = .collected then
      { e with
        wards := e.wards.set index
          { w with reaping := if e.isDisposed then .done else .reporting } }
    else e
  | none => e

/-- The report takes over the hold on the supervisor. -/
def report (e : Estate) (index : Nat) : Estate :=
  match e.wards[index]? with
  | some w =>
    match w.exit, w.reaping with
    | some code, .reporting =>
      { e with wards := e.wards.set index { w with reaping := .done } }.put (.exited w.pid code)
    | _, _ => e
  | none => e

def move (e : Estate) : Event → Estate
  | .start => e.call .start
  | .stop timeout => e.call (.stop timeout)
  | .dispose => e.part .held .disposed
  | .announce => e.part .disposed .announced
  | .strip => e.strip
  | .release => e.part .stripped .gone
  | .take => e.take
  | .perform launched => e.perform launched
  | .complete => e.complete
  | .tell index ev => e.tell index ev
  | .escalate index => e.escalate index
  | .wake index => e.wake index
  | .exit index code => e.exit index code
  | .collect index => e.collect index
  | .look index => e.look index
  | .report index => e.report index
  | .elapse ms => { e with now := e.now + ms }

/-- What nobody holds on to is dropped. -/
def settle (e : Estate) : Estate := if e.isHeld then e else e.kill

def advance (e : Estate) (ev : Event) : Estate := (e.move ev).settle

def execute (e : Estate) : List Event → Estate
  | [] => e
  | ev :: events => (e.advance ev).execute events

/-- What a call with this ticket comes to. A stop waits for its errand. -/
def answer? (e : Estate) (ticket : Nat) : Option (Except QueueError Unit) :=
  match e.told ticket with
  | some (.ok ()) => if e.errands.any fun x => x.call = ticket then none else some (.ok ())
  | a => a

theorem execute_append (e : Estate) (earlier later : List Event) :
    e.execute (earlier ++ later) = (e.execute earlier).execute later := by
  induction earlier generalizing e with
  | nil => rfl
  | cons ev earlier ih => exact ih (e.advance ev)

/-- What every step keeps holds after every run. -/
theorem execute_induction {motive : Estate → Prop} {e : Estate} (start : motive e)
    (step : ∀ (e : Estate) (ev : Event), motive e → motive (e.advance ev)) (events : List Event) :
    motive (e.execute events) := by
  induction events generalizing e with
  | nil => exact start
  | cons ev events ih => exact ih (step e ev start)

def pending (e : Estate) : List Job := (e.executing.map Executing.job).toList ++ e.queue

/-- Tickets are numbered as they are given, and answered once. -/
structure Numbered (told : Nat → Option (Except QueueError Unit)) (next : Nat) (jobs : List Job) :
    Prop where
  nodup : (jobs.map Job.ticket).Nodup
  untold : ∀ job ∈ jobs, job.ticket < next ∧ told job.ticket = none
  unused : ∀ ticket, next ≤ ticket → told ticket = none

namespace Numbered

variable {told : Nat → Option (Except QueueError Unit)} {next : Nat} {jobs : List Job}

theorem put (numbered : Numbered told next jobs) (r : Request) :
    Numbered told (next + 1) (jobs ++ [⟨next, r⟩]) where
  nodup := by
    rw [List.map_append, List.nodup_append]
    refine ⟨numbered.nodup, List.pairwise_singleton _ _, ?_⟩
    intro ticket member other last
    obtain ⟨job, old, rfl⟩ := List.mem_map.mp member
    rw [List.mem_singleton.mp last]
    exact Nat.ne_of_lt (numbered.untold job old).1
  untold := by
    intro job member
    rcases List.mem_append.mp member with old | new
    · exact ⟨Nat.lt_succ_of_lt (numbered.untold job old).1, (numbered.untold job old).2⟩
    · rw [List.mem_singleton.mp new]
      exact ⟨Nat.lt_succ_self next, numbered.unused next (Nat.le_refl _)⟩
  unused ticket bound := numbered.unused ticket (Nat.le_of_succ_le bound)

theorem answer {job : Job} (numbered : Numbered told next (job :: jobs))
    (a : Except QueueError Unit) :
    Numbered (Function.update told job.ticket (some a)) next jobs where
  nodup := (List.nodup_cons.mp numbered.nodup).2
  untold := by
    intro other member
    have different : other.ticket ≠ job.ticket := fun same =>
      (List.nodup_cons.mp numbered.nodup).1 (same ▸ List.mem_map_of_mem member)
    obtain ⟨bound, untold⟩ := numbered.untold other (List.mem_cons_of_mem _ member)
    exact ⟨bound, by rwa [Function.update_of_ne different]⟩
  unused := by
    intro ticket bound
    have taken := (numbered.untold job List.mem_cons_self).1
    rw [Function.update_of_ne (by omega)]
    exact numbered.unused ticket bound

end Numbered

def unperformed (e : Estate) : List Job := e.unperformed?.toList ++ e.queue

def reportsOf (jobs : List Job) : Nat := jobs.countP fun job => job.request.reported?.isSome

def unreported (w : Ward) : Bool := decide (w.reaping ≠ .done)

/-- At most one exit is to be reported, and only while a process is there. A process that was
replaced is accounted for; the last one is, or its handle is at hand. -/
structure Attended (wards : List Ward) (handled live : Bool) (reports : Nat) : Prop where
  outstanding : wards.countP unreported + reports ≤ live.toNat
  elders : ∀ w ∈ wards.tail, w.reaping = .done ∧ w.isAccounted = true
  first : ∀ w ∈ wards.head?, w.isAccounted = true ∨ handled = true
  ended : ∀ w ∈ wards, w.reaping = .waiting ∨ w.exit.isSome = true

namespace Attended

variable {wards : List Ward} {handled live : Bool} {reports : Nat}

theorem congr (attended : Attended wards handled live reports) {handled' live' : Bool}
    {reports' : Nat} (keeps : handled = true → handled' = true) (lives : live = true → live' = true)
    (fewer : reports' ≤ reports) : Attended wards handled' live' reports' where
  outstanding := by
    have outstanding := attended.outstanding
    have more : live.toNat ≤ live'.toNat := by cases live <;> simp_all
    omega
  elders := attended.elders
  first w member := (attended.first w member).imp_right keeps
  ended := attended.ended

/-- A report that is executed was the last. -/
theorem reported (attended : Attended wards handled live (reports + 1)) (live' : Bool) :
    Attended wards handled live' reports where
  outstanding := by
    have outstanding := attended.outstanding
    have most : live.toNat ≤ 1 := live.toNat_le
    omega
  elders := attended.elders
  first := attended.first
  ended := attended.ended

/-- A process that was asked to die is accounted for without its handle. -/
theorem ask (attended : Attended wards handled live reports) (handled' : Bool) :
    Attended (askFirst wards) handled' live reports := by
  cases wards with
  | nil => exact ⟨attended.outstanding, by simp [askFirst], by simp [askFirst], by simp [askFirst]⟩
  | cons w ws =>
    refine ⟨attended.outstanding, attended.elders, by simp [askFirst, Ward.isAccounted], ?_⟩
    intro v member
    rcases List.mem_cons.mp member with rfl | old
    · exact attended.ended w List.mem_cons_self
    · exact attended.ended v (List.mem_cons_of_mem _ old)

theorem launch (attended : Attended wards false false reports) (pid : UInt32) :
    Attended ({ pid } :: wards) true true reports := by
  have none : wards.countP unreported + reports = 0 := Nat.le_zero.mp attended.outstanding
  refine ⟨?_, ?_, by simp, ?_⟩
  · simp only [List.countP_cons, Bool.toNat_true]
    split <;> omega
  · intro w member
    refine ⟨?_, ?_⟩
    · have done := List.countP_eq_zero.mp (Nat.eq_zero_of_add_eq_zero_right none) w member
      simpa [unreported] using done
    · cases wards with
      | nil => simp at member
      | cons v vs =>
        rcases List.mem_cons.mp member with rfl | elder
        · simpa using attended.first w rfl
        · exact (attended.elders w elder).2
  · intro w member
    rcases List.mem_cons.mp member with rfl | old
    · exact .inl rfl
    · exact attended.ended w old

/-- A process goes on, and its reaper with it. -/
theorem set (attended : Attended wards handled live reports) {index : Nat} {w w' : Ward}
    (found : wards[index]? = some w) {reports' : Nat}
    (accounted : w.isAccounted = true → w'.isAccounted = true)
    (done : w.reaping = .done → w'.reaping = .done)
    (ended : w'.reaping = .waiting ∨ w'.exit.isSome = true)
    (outstanding : (unreported w').toNat + reports' ≤ (unreported w).toNat + reports) :
    Attended (wards.set index w') handled live reports' := by
  obtain ⟨bound, here⟩ := List.getElem?_eq_some_iff.mp found
  refine ⟨?_, ?_, ?_, ?_⟩
  · have before := attended.outstanding
    have counted := List.countP_set (p := unreported) (a := w') bound
    have positive : unreported w = true → 0 < wards.countP unreported := fun h =>
      List.countP_pos_iff.mpr ⟨w, here ▸ List.getElem_mem bound, h⟩
    rw [here] at counted
    rw [counted]
    cases mine : unreported w <;> cases new : unreported w' <;>
      simp only [mine, new, Bool.toNat_true, Bool.toNat_false, if_true, if_false,
        Bool.false_eq_true, forall_true_left] at positive outstanding ⊢ <;> omega
  · intro v member
    cases wards with
    | nil => simp at bound
    | cons first rest =>
      cases index with
      | zero => exact attended.elders v member
      | succ index =>
        rcases List.mem_or_eq_of_mem_set member with old | rfl
        · exact attended.elders v old
        · have elder := attended.elders w (List.mem_of_getElem? found)
          exact ⟨done elder.1, accounted elder.2⟩
  · intro v member
    cases wards with
    | nil => simp at bound
    | cons first rest =>
      cases index with
      | zero =>
        obtain rfl : w' = v := by simpa using member
        obtain rfl : first = w := by simpa using found
        exact (attended.first first rfl).imp_left accounted
      | succ index => exact attended.first v member
  · intro v member
    rcases List.mem_or_eq_of_mem_set member with old | rfl
    · exact attended.ended v old
    · exact ended

end Attended

structure Sound (e : Estate) : Prop where
  numbered : Numbered e.told e.next e.pending
  attended : Attended e.wards e.supervisor.handle.isSome e.supervisor.state.isLive
    (reportsOf e.unperformed)
  stripped : e.owner.isStripped = true → ∀ job, e.unperformed? = some job →
    e.supervisor.handle = none
  launched : e.wards.map Ward.pid = (e.log.filterMap Deed.launched?).reverse

theorem sound_fresh (settings : Settings) : (fresh settings).Sound where
  numbered := ⟨List.Pairwise.nil, by simp [fresh, pending], fun _ _ => rfl⟩
  attended := ⟨Nat.le_refl _, by simp [fresh], by simp [fresh], by simp [fresh]⟩
  stripped := by simp [fresh, Ownership.isStripped]
  launched := rfl

theorem unperformed?_eq_some_iff {e : Estate} {job : Job} :
    e.unperformed? = some job ↔ e.executing = some ⟨job, false⟩ := by
  unfold unperformed?
  rcases e.executing with _ | ⟨other, _ | _⟩ <;> simp

theorem reportsOf_append (earlier later : List Job) :
    reportsOf (earlier ++ later) = reportsOf earlier + reportsOf later :=
  List.countP_append

theorem reportsOf_put (e : Estate) (r : Request) :
    reportsOf (e.put r).unperformed = reportsOf e.unperformed + r.reported?.isSome.toNat := by
  have same : (e.put r).unperformed = e.unperformed ++ [⟨e.next, r⟩] :=
    (List.append_assoc _ _ _).symm
  rw [same, reportsOf_append]
  cases found : r.reported? <;> simp [reportsOf, found]

namespace Sound

variable {e : Estate}

theorem put_numbered (sound : e.Sound) (r : Request) :
    Numbered (e.put r).told (e.put r).next (e.put r).pending := by
  have same : (e.put r).pending = e.pending ++ [⟨e.next, r⟩] := (List.append_assoc _ _ _).symm
  rw [same]
  exact sound.numbered.put r

theorem put (sound : e.Sound) {r : Request} (noReport : r.reported? = none) :
    (e.put r).Sound where
  numbered := sound.put_numbered r
  attended := by
    rw [reportsOf_put, noReport]
    exact sound.attended
  stripped := sound.stripped
  launched := sound.launched

theorem call (sound : e.Sound) {r : Request} (noReport : r.reported? = none) :
    (e.call r).Sound := by
  unfold Estate.call
  split
  · exact sound
  · exact sound.put noReport

/-- A process goes on. Nothing but its handle may change with it. -/
theorem set (sound : e.Sound) {index : Nat} {w w' : Ward} (found : e.wards[index]? = some w)
    (same : w'.pid = w.pid) (accounted : w.isAccounted = true → w'.isAccounted = true)
    (done : w.reaping = .done → w'.reaping = .done)
    (ended : w'.reaping = .waiting ∨ w'.exit.isSome = true)
    (outstanding : (unreported w').toNat ≤ (unreported w).toNat) :
    Sound { e with wards := e.wards.set index w' } where
  numbered := sound.numbered
  attended := sound.attended.set found accounted done ended (Nat.add_le_add_right outstanding _)
  stripped := sound.stripped
  launched := by
    rw [← sound.launched]
    obtain ⟨bound, rfl⟩ := List.getElem?_eq_some_iff.mp found
    rw [List.map_set, same, ← List.getElem_map Ward.pid (h := by simpa)]
    exact List.set_getElem_self _

theorem exit (sound : e.Sound) (index : Nat) (code : Int32) : (e.exit index code).Sound := by
  unfold Estate.exit
  split
  next w found =>
    split
    · exact sound
    · exact sound.set found rfl (fun _ => rfl) id (.inr rfl) (Nat.le_refl _)
  next => exact sound

theorem collect (sound : e.Sound) (index : Nat) : (e.collect index).Sound := by
  unfold Estate.collect
  split
  next w found =>
    split
    next enabled =>
      obtain ⟨exited, waiting⟩ := enabled
      have gone : Sound { e with wards := e.wards.set index { w with reaping := .collected } } :=
        sound.set found rfl id (fun done => by simp [waiting] at done) (.inr exited)
          (by simp [unreported, waiting])
      refine ⟨gone.numbered, ?_, ?_, gone.launched⟩
      · exact gone.attended.congr (fun handled => by simpa [Supervisor.collect] using handled) id
          (Nat.le_refl _)
      · intro stripped job busy
        simp [Supervisor.collect, sound.stripped stripped job busy]
    · exact sound
  next => exact sound

theorem look (sound : e.Sound) (index : Nat) : (e.look index).Sound := by
  unfold Estate.look
  split
  next w found =>
    split
    next collected =>
      have exited := sound.attended.ended w (List.mem_of_getElem? found)
      simp only [collected, reduceCtorEq, false_or] at exited
      refine sound.set found rfl id (fun done => by simp [collected] at done) (.inr exited) ?_
      cases e.isDisposed <;> simp [unreported, collected]
    · exact sound
  next => exact sound

/-- The reaper has reported as the report comes to be outstanding. -/
theorem report (sound : e.Sound) (index : Nat) : (e.report index).Sound := by
  unfold Estate.report
  split
  next w found =>
    split
    next code exited reporting =>
      have accounted : w.isAccounted = true := by simp [Ward.isAccounted, exited]
      have gone : Sound { e with wards := e.wards.set index { w with reaping := .done } } :=
        sound.set found rfl id (fun _ => rfl) (.inr (by simp [exited]))
          (by simp [unreported])
      refine ⟨gone.put_numbered _, ?_, gone.stripped, gone.launched⟩
      rw [reportsOf_put]
      change Attended _ _ _ (reportsOf e.unperformed + 1)
      refine sound.attended.set found id (fun _ => rfl) (.inr (by simp [exited])) ?_
      simp [unreported, reporting, Nat.add_comm]
    · exact sound
  next => exact sound

theorem part (sound : e.Sound) {source target : Ownership}
    (same : target.isStripped = source.isStripped) : (e.part source target).Sound := by
  unfold Estate.part
  split
  next owner =>
    exact ⟨sound.numbered, sound.attended,
      fun stripped => sound.stripped (by rwa [owner, ← same]), sound.launched⟩
  · exact sound

theorem kill (sound : e.Sound) : e.kill.Sound where
  numbered := sound.numbered
  attended := by
    rw [Estate.kill, drop_fst]
    cases handled : e.supervisor.handle with
    | none =>
      have attended := sound.attended
      rw [handled] at attended
      exact attended
    | some h => exact sound.attended.ask false
  stripped _ _ _ := handle_drop e.supervisor
  launched := by
    change _ = (e.log.filterMap Deed.launched?).reverse
    rw [← sound.launched, Estate.kill]
    cases e.supervisor.handle <;> cases e.wards <;> rfl

theorem strip (sound : e.Sound) : e.strip.Sound := by
  unfold Estate.strip
  split
  · exact ⟨sound.kill.numbered, sound.kill.attended, fun _ _ _ => handle_drop e.supervisor,
      sound.kill.launched⟩
  · exact sound

theorem take (sound : e.Sound) : e.take.Sound := by
  unfold Estate.take
  split
  next job rest free queue =>
    have numbered : Numbered e.told e.next (job :: rest) := by
      have numbered := sound.numbered
      rwa [pending, free, queue] at numbered
    have outstanding : reportsOf e.unperformed = reportsOf (job :: rest) := by
      rw [unperformed, unperformed?, free, queue]
      rfl
    split
    · refine ⟨?_, ?_, by simp [unperformed?, free, answer], sound.launched⟩
      · simpa [pending, free, answer] using numbered.answer (.error .cancelled)
      · refine sound.attended.congr id id ?_
        rw [outstanding]
        simp only [unperformed, unperformed?, answer, free, Option.bind_none, Option.toList_none,
          List.nil_append, reportsOf, List.countP_cons]
        omega
    next held =>
      have owner : e.owner = .held := by simpa [isDisposed] using held
      refine ⟨?_, ?_, by simp [owner, Ownership.isStripped], sound.launched⟩
      · simpa [pending] using numbered
      · refine sound.attended.congr id id ?_
        rw [outstanding]
        exact Nat.le_refl _
  next => exact sound

theorem complete (sound : e.Sound) : e.complete.Sound := by
  unfold Estate.complete
  split
  next job busy =>
    have numbered : Numbered e.told e.next (job :: e.queue) := by
      have numbered := sound.numbered
      rwa [pending, busy] at numbered
    refine ⟨numbered.answer (.ok ()), ?_, by simp [unperformed?, answer], sound.launched⟩
    refine sound.attended.congr id id (Nat.le_of_eq ?_)
    simp [unperformed, unperformed?, answer, busy]
  next => exact sound

/-- Launched or not, at most one exit is outstanding after an operation. -/
theorem attended_perform (sound : e.Sound) {job : Job} (busy : e.unperformed? = some job)
    {d : Deed} (before : d.before = e.supervisor)
    (reported : d.operation.reported? = job.request.reported?) :
    Attended ((d.launched?.toList.map fun pid => ({ pid } : Ward)) ++
        if d.asks then askFirst e.wards else e.wards)
      d.after.handle.isSome d.after.state.isLive (reportsOf e.queue) := by
  have attended := sound.attended
  have counted : reportsOf e.unperformed =
      reportsOf e.queue + job.request.reported?.isSome.toNat := by
    rw [unperformed, busy, Option.toList_some, reportsOf_append, Nat.add_comm]
    cases found : job.request.reported? <;> simp [reportsOf, found]
  rw [counted] at attended
  cases launched : d.launched? with
  | some pid =>
    obtain ⟨idle, live, handled⟩ := isLive_launch launched
    have noReport : job.request.reported? = none := by
      rw [← reported, (launches?_eq_some_iff.mp launched).1]
      rfl
    rw [before] at idle
    rw [idle, noReport] at attended
    rw [Deed.after, live, handled]
    refine Attended.launch ?_ pid
    cases asks : d.asks with
    | true => exact attended.ask false
    | false =>
      have unhandled : e.supervisor.handle.isSome = false := by
        simpa [Deed.asks, launched, before] using asks
      rw [unhandled] at attended
      exact attended
  | none =>
    have handled : Attended (if d.asks then askFirst e.wards else e.wards) d.after.handle.isSome
        e.supervisor.state.isLive
        (reportsOf e.queue + job.request.reported?.isSome.toNat) := by
      cases asks : d.asks with
      | true => exact attended.ask _
      | false =>
        refine attended.congr (fun handled => ?_) id (Nat.le_refl _)
        rw [Deed.asks, before, handled, Bool.true_and, Bool.or_eq_false_iff,
          Bool.or_eq_false_iff] at asks
        simpa using asks.1.2
    cases noReport : job.request.reported? with
    | some pid =>
      rw [noReport] at handled
      exact handled.reported _
    | none =>
      rw [noReport] at handled reported
      refine handled.congr id (fun live => isLive_perform reported ?_) (Nat.le_refl _)
      rwa [before]

theorem perform (sound : e.Sound) (launched : Except SystemError UInt32) :
    (e.perform launched).Sound := by
  unfold Estate.perform
  split
  next => exact sound
  next job busy =>
    have executing := unperformed?_eq_some_iff.mp busy
    refine ⟨?_, ?_, by simp [unperformed?], ?_⟩
    · have numbered := sound.numbered
      rwa [pending, executing] at numbered
    · exact sound.attended_perform busy rfl (job.request.reported?_operation launched)
    · rw [List.filterMap_append, List.reverse_append, ← sound.launched, List.map_append]
      refine congrArg₂ (· ++ ·) ?_ ?_
      · cases found : Deed.launched? ⟨e.supervisor, job.request.operation launched⟩ <;> simp [found]
      · split
        · cases e.wards <;> rfl
        · rfl

theorem resume (sound : e.Sound) (index call : Nat) (stage : Option Errand.Stage) :
    (e.resume index call stage).Sound := by
  cases stage <;> exact ⟨sound.numbered, sound.attended, sound.stripped, sound.launched⟩

theorem move (sound : e.Sound) (ev : Event) : (e.move ev).Sound := by
  cases ev with
  | start => exact sound.call rfl
  | stop timeout => exact sound.call rfl
  | dispose => exact sound.part rfl
  | announce => exact sound.part rfl
  | strip => exact sound.strip
  | release => exact sound.part rfl
  | take => exact sound.take
  | perform launched => exact sound.perform launched
  | complete => exact sound.complete
  | tell index ev =>
    simp only [Estate.move, Estate.tell]
    split
    · exact sound.resume _ _ _
    · exact sound
  | escalate index =>
    simp only [Estate.move, Estate.escalate]
    split
    · exact (sound.put rfl).resume _ _ _
    · exact sound
  | wake index =>
    simp only [Estate.move, Estate.wake]
    repeat' split
    · exact sound.resume _ _ _
    all_goals exact sound
  | exit index code => exact sound.exit index code
  | collect index => exact sound.collect index
  | look index => exact sound.look index
  | report index => exact sound.report index
  | elapse ms => exact ⟨sound.numbered, sound.attended, sound.stripped, sound.launched⟩

theorem settle (sound : e.Sound) : e.settle.Sound := by
  unfold Estate.settle
  split
  · exact sound
  · exact sound.kill

theorem advance (sound : e.Sound) (ev : Event) : (e.advance ev).Sound :=
  (sound.move ev).settle

end Sound

theorem sound_execute (settings : Settings) (events : List Event) :
    ((fresh settings).execute events).Sound :=
  execute_induction (sound_fresh settings) (fun _ ev sound => sound.advance ev) events

/-- A supervisor that nobody holds on to has no process. -/
def IsSettled (e : Estate) : Prop := e.isHeld = true ∨ e.supervisor.handle = none

theorem isSettled_settle (e : Estate) : e.settle.IsSettled := by
  unfold settle
  split
  next held => exact .inl held
  next => exact .inr (handle_drop e.supervisor)

theorem IsSettled.execute {e : Estate} (settled : e.IsSettled) (events : List Event) :
    (e.execute events).IsSettled :=
  execute_induction settled (fun f ev _ => (f.move ev).isSettled_settle) events

/-- Only the process that was launched last may be unaccounted for. -/
theorem Sound.accounted_of_head {e : Estate} (sound : e.Sound)
    (first : ∀ w ∈ e.wards.head?, w.isAccounted = true) : ∀ w ∈ e.wards, w.isAccounted = true := by
  intro w member
  have elders := sound.attended.elders
  cases wards : e.wards with
  | nil => simp [wards] at member
  | cons v rest =>
    rw [wards] at member elders first
    rcases List.mem_cons.mp member with rfl | elder
    · exact first w rfl
    · exact (elders w elder).2

/-- Without a process at hand all that were launched are accounted for. -/
theorem Sound.accounted_of_unhandled {e : Estate} (sound : e.Sound)
    (unhandled : e.supervisor.handle = none) : ∀ w ∈ e.wards, w.isAccounted = true :=
  sound.accounted_of_head fun w head => by simpa [unhandled] using sound.attended.first w head

/-- Only a reaper about to report may be left to hold on, and then its process is the last one. -/
theorem Sound.accounted {e : Estate} (sound : e.Sound) (settled : e.IsSettled)
    (gone : e.owner = .gone) (queue : e.queue = []) (free : e.executing = none)
    (errands : e.errands = []) : ∀ w ∈ e.wards, w.isAccounted = true := by
  rcases settled with held | unhandled
  · have reporting : ∃ w ∈ e.wards, w.reaping = .reporting := by
      simpa [isHeld, gone, queue, free, errands] using held
    obtain ⟨w, member, reporting⟩ := reporting
    have exited : w.exit.isSome = true := by
      simpa [reporting] using sound.attended.ended w member
    have elders := sound.attended.elders
    refine sound.accounted_of_head fun v head => ?_
    cases wards : e.wards with
    | nil => simp [wards] at member
    | cons first rest =>
      obtain rfl : first = v := by simpa [wards] using head
      rw [wards] at member elders
      rcases List.mem_cons.mp member with rfl | elder
      · simp [Ward.isAccounted, exited]
      · have done := (elders w elder).1
        simp [reporting] at done
  · exact sound.accounted_of_unhandled unhandled

end Estate

end Overseer.Supervisor
